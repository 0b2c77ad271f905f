import Mathlib.Data.List.Induction
import Mathlib.Logic.Function.Basic
import Motrix.Lib.Grouping
import Motrix.Lib.TextLines
import Motrix.Lib.Utf16

/-!
# Request settings of imported sessions

The last value of an option is the one that counts, a task's before the
system's, while headers of both accumulate.  What cannot be taken over is left
out by name.
-/

namespace Motrix.Legacy

open Lib Lib.TextLines

/-! ## Settings -/

/-- A value of the system's configuration; `other` is whatever is not a
well-formed text. -/
inductive Setting where
  | missing
  | text (value : String)
  | flag (value : Bool)
  | list (values : List Setting)
  | other

def Setting.isText (setting : Setting) (wanted : String) : Bool :=
  match setting with
  | text value => value == wanted
  | _ => false

def Setting.isTrue : Setting → Bool
  | flag value => value
  | setting => setting.isText "true"

inductive LegacyRequestKind where
  | http
  | bt
  | magnet
  | unknown
  deriving DecidableEq

abbrev SystemSettings := List (String × Setting)

abbrev TaskValues := List (String × List String)

def MAX_LINE : Nat := 16384

def OPTIONS : List String :=
  ["gid", "dir", "out", "select-file", "pause", "continue",
    "max-connection-per-server", "split", "min-split-size",
    "max-download-limit", "max-upload-limit", "bt-seed-unverified",
    "seed-time", "seed-ratio", "bt-save-metadata", "bt-metadata-only",
    "check-integrity", "allow-overwrite", "auto-file-renaming",
    "file-allocation", "pause-metadata", "follow-torrent", "follow-metalink",
    "enable-peer-exchange", "bt-enable-lpd", "bt-force-encryption",
    "bt-load-saved-metadata", "bt-tracker"]

def PROXY_PREFIXES : List String :=
  ["all-proxy", "http-proxy", "https-proxy", "ftp-proxy"]

def LEGACY_PROXY_OPTIONS : List String :=
  (PROXY_PREFIXES.flatMap fun key => [key, key ++ "-user", key ++ "-passwd"]) ++
    ["no-proxy", "proxy-method"]

def LEGACY_REQUEST_OPTIONS : List String :=
  ["header", "referer", "http-user", "http-passwd", "user-agent", "no-netrc"]

def FORBIDDEN_HEADERS : List String :=
  ["range", "if-range", "if-match", "accept-encoding", "host", "connection",
    "content-length", "transfer-encoding", "proxy-authorization"]

def safeOptionName (name : String) : Bool :=
  decide (name.toList.length ≤ 64) && !name.isEmpty &&
    name.toList.all fun letter =>
      letter.isLower || letter.isDigit || letter == '-'

/-! ## Texts -/

def trim (text : List Char) : List Char :=
  ((text.dropWhile isSpace).reverse.dropWhile isSpace).reverse

def isBlank (text : String) : Bool :=
  text.toList.all isSpace

/-- The letters that are lowered into ASCII; one of them is the Kelvin sign. -/
def lowerLetter (letter : Char) : Char :=
  if letter.toNat = 0x212a then 'k' else letter.toLower

def isTokenLetter (letter : Char) : Bool :=
  letter.isLower || letter.isDigit ||
    "!#$%&'*+.^_\x60|~-".toList.contains letter

/-- A setting that is a text without control characters. -/
def validRequestText : Setting → Option String
  | .text value =>
      if (Utf16.encode value.toList).length ≤ MAX_LINE ∧
          value.toList.all fun letter =>
            decide (32 ≤ letter.toNat) && letter.toNat != 127 then
        some value
      else none
  | _ => none

/-! ## What was resolved so far -/

structure Resolution where
  values : String → Option (List String)
  ignored : List String

namespace Resolution

def ignore (state : Resolution) (key : String) : Resolution :=
  if safeOptionName key && decide (state.ignored.length < 64) &&
      !state.ignored.contains key then
    { state with ignored := state.ignored ++ [key] }
  else state

def ignoreIf (state : Resolution) (wanted : Bool) (key : String) :
    Resolution :=
  if wanted then state.ignore key else state

def set (state : Resolution) (key : String) (value : Option (List String)) :
    Resolution :=
  { state with values := Function.update state.values key value }

/-- Whether an option has a value that is not empty. -/
def isGiven (state : Resolution) (key : String) : Bool :=
  ((state.values key).bind List.head?).any (!·.isEmpty)

end Resolution

/-! ## Options with one value -/

def Setting.values : Setting → List Setting
  | missing => []
  | list values => values
  | setting => [setting]

def setting (system : SystemSettings) (key : String) : Setting :=
  (system.lookup key).getD .missing

def raw (task : TaskValues) (system : SystemSettings) (key : String) :
    List Setting :=
  match task.lookup key with
  | some values => values.map .text
  | none => (setting system key).values

def isCredential (key : String) : Bool :=
  "-user".toList.isSuffixOf key.toList ||
    "-passwd".toList.isSuffixOf key.toList

/-- The value that is taken over of an option for a task over HTTP. -/
def requestValue (key : String) (value : Setting) : Option String :=
  (validRequestText value).bind fun text =>
    if (key = "referer" ∧ text = "*") ∨
        (key = "http-user" ∧ ':' ∈ text.toList) then
      none
    else some (if isBlank text && !isCredential key then "" else text)

def resolveOption (kind : LegacyRequestKind) (list : List Setting)
    (key : String) (state : Resolution) : Resolution :=
  match list.getLast? with
  | none => state
  | some value =>
      if key = "no-netrc" then state.ignoreIf (!value.isTrue) key
      else if kind ≠ .http then state.ignoreIf (!value.isText "") key
      else
        match requestValue key value with
        | none => state.ignore key
        | some text => state.set key (some [text])

/-! ## Headers -/

def headerName (line : String) : String :=
  String.ofList ((trim (line.toList.takeWhile (· != ':'))).map lowerLetter)

/-- A line with a name that may be sent. -/
def isHeader (line : String) : Bool :=
  line.toList.contains ':' && line.toList.head? != some ':' &&
    !(headerName line).isEmpty &&
    (headerName line).toList.all isTokenLetter &&
    !FORBIDDEN_HEADERS.contains (headerName line)

abbrev Groups := List (String × List String)

def isBlankText : Setting → Bool
  | .text value => isBlank value
  | _ => false

def acceptLine (line : Setting) (state : Resolution × Groups) :
    Resolution × Groups :=
  if isBlankText line then state
  else
    match validRequestText line with
    | none => (state.1.ignore "header", state.2)
    | some text =>
        if isHeader text then
          (state.1, Grouping.push state.2 (headerName text) text)
        else (state.1.ignore "header", state.2)

/-- A value of a header leaves no place for the option of the same name. -/
def yieldTo (groups : Groups) (option header : String) (state : Resolution) :
    Resolution :=
  if state.isGiven option && groups.any (fun group => group.1 == header) then
    if option = "http-user" then
      (((state.ignore option).ignoreIf (state.isGiven "http-passwd")
        "http-passwd").set "http-passwd" none).set option none
    else (state.ignore option).set option none
  else state

def readHeaders (headers : List Setting) (state : Resolution) :
    Resolution × Groups :=
  headers.foldl (fun state line => acceptLine line state) (state, [])

/-- A password is not left without its user. -/
def dropPassword (state : Resolution) : Resolution :=
  if !state.isGiven "http-user" && state.isGiven "http-passwd" then
    (state.ignore "http-passwd").set "http-passwd" none
  else state

/-- Headers go before options, and a user before the password. -/
def giveWay (byName : Groups) (state : Resolution) : Resolution :=
  dropPassword (yieldTo byName "http-user" "authorization"
    (yieldTo byName "referer" "referer" state))

/-- The headers whose name came once are taken over. -/
def placeHeaders (groups : Groups) (state : Resolution) : Resolution :=
  let byName := groups.filter fun group => decide (group.2.length ≤ 1)
  let paired := giveWay byName state
  let accepted := byName.flatMap Prod.snd
  if accepted.isEmpty then paired else paired.set "header" (some accepted)

def resolveHeaders (headers : List Setting) (state : Resolution) :
    Resolution :=
  let (seen, groups) := readHeaders headers state
  placeHeaders groups
    (seen.ignoreIf (groups.any fun group => decide (1 < group.2.length))
      "header")

/-! ## The whole resolution -/

def ignoresSystem (system : SystemSettings) (key : String) : Bool :=
  !OPTIONS.contains key && !LEGACY_REQUEST_OPTIONS.contains key &&
    (!LEGACY_PROXY_OPTIONS.contains key || !(setting system key).isText "")

def allHeaders (task : TaskValues) (system : SystemSettings) : List Setting :=
  (setting system "header").values ++
    ((task.lookup "header").getD []).map .text

def ignoreSystem (system : SystemSettings) (ignored : List String) :
    Resolution :=
  (system.map (·.1)).foldl
    (fun state key => state.ignoreIf (ignoresSystem system key) key)
    { values := fun _ => none
      ignored := ignored.eraseDups }

def resolveKey (task : TaskValues) (system : SystemSettings)
    (kind : LegacyRequestKind) (state : Resolution) (key : String) :
    Resolution :=
  if key = "header" then state
  else resolveOption kind (raw task system key) key state

def resolveOptions (task : TaskValues) (ignored : List String)
    (system : SystemSettings) (kind : LegacyRequestKind) : Resolution :=
  LEGACY_REQUEST_OPTIONS.foldl (resolveKey task system kind)
    (ignoreSystem system ignored)

structure Resolved where
  values : String → Option (List String)
  requestOptions : List String
  ignoredOptions : List String

def Resolved.accepted (resolved : Resolved) : List String :=
  (resolved.values "header").getD []

def Resolved.isGiven (resolved : Resolved) (key : String) : Bool :=
  ((resolved.values key).bind List.head?).any (!·.isEmpty)

def resolveLegacyRequestSettings (task : TaskValues) (ignored : List String)
    (system : SystemSettings) (kind : LegacyRequestKind) : Resolved :=
  let options := resolveOptions task ignored system kind
  let headers := allHeaders task system
  let last :=
    if kind ≠ .http then
      options.ignoreIf (headers.any (!·.isText "")) "header"
    else resolveHeaders headers options
  { values := last.values
    requestOptions :=
      ["referer", "http-user", "http-passwd", "user-agent", "header"].filter
        fun key => key != "user-agent" &&
          ((last.values key).getD []).any (!·.isEmpty)
    ignoredOptions := last.ignored }

/-! ## What is left out by name -/

/-- A later state has left out no less. -/
def Grows (first last : Resolution) : Prop :=
  first.ignored ⊆ last.ignored ∧
    first.ignored.length ≤ last.ignored.length

namespace Grows

theorem refl (state : Resolution) : Grows state state :=
  ⟨List.Subset.refl _, Nat.le_refl _⟩

theorem trans {first second third : Resolution} (one : Grows first second)
    (two : Grows second third) : Grows first third :=
  ⟨fun _ member => two.1 (one.1 member), Nat.le_trans one.2 two.2⟩

theorem ignore (state : Resolution) (key : String) :
    Grows state (state.ignore key) := by
  unfold Resolution.ignore
  split
  · exact ⟨List.subset_append_left _ _, by simp⟩
  · exact refl state

theorem ignoreIf (state : Resolution) (wanted : Bool) (key : String) :
    Grows state (state.ignoreIf wanted key) := by
  unfold Resolution.ignoreIf
  split
  · exact ignore state key
  · exact refl state

theorem set (state : Resolution) (key : String)
    (value : Option (List String)) : Grows state (state.set key value) :=
  refl state

theorem foldl {Item : Type} {step : Resolution → Item → Resolution}
    (grows : ∀ state item, Grows state (step state item))
    (state : Resolution) (items : List Item) :
    Grows state (items.foldl step state) := by
  induction items generalizing state with
  | nil => exact refl state
  | cons item items induction =>
      exact (grows state item).trans (induction (step state item))

end Grows

/-- An option was left out on the way, by name where there was room. -/
def Named (last : Resolution) (key : String) : Prop :=
  ∃ state : Resolution, Grows (state.ignore key) last

namespace Named

theorem ignore (state : Resolution) (key : String) :
    Named (state.ignore key) key :=
  ⟨state, Grows.refl _⟩

theorem ignoreIf {wanted : Bool} (state : Resolution) (key : String)
    (isWanted : wanted = true) : Named (state.ignoreIf wanted key) key := by
  simpa [Resolution.ignoreIf, isWanted] using ignore state key

theorem grows {first last : Resolution} {key : String}
    (named : Named first key) (grows : Grows first last) : Named last key := by
  obtain ⟨state, before⟩ := named
  exact ⟨state, before.trans grows⟩

theorem mem {last : Resolution} {key : String} (named : Named last key)
    (room : last.ignored.length < 64) (safe : safeOptionName key = true) :
    key ∈ last.ignored := by
  obtain ⟨state, grows⟩ := named
  apply grows.1
  have few := Nat.lt_of_le_of_lt grows.2 room
  have before := Nat.lt_of_le_of_lt (Grows.ignore state key).2 few
  unfold Resolution.ignore
  cases known : state.ignored.contains key with
  | true => simpa [known] using known
  | false => simp [safe, before]

end Named

variable {task : TaskValues} {system : SystemSettings}
  {state last : Resolution} {key : String} {list : List Setting}
  {kind : LegacyRequestKind}

@[simp] theorem ignore_values (state : Resolution) (key : String) :
    (state.ignore key).values = state.values := by
  unfold Resolution.ignore
  split <;> rfl

@[simp] theorem ignoreIf_values (state : Resolution) (wanted : Bool)
    (key : String) : (state.ignoreIf wanted key).values = state.values := by
  unfold Resolution.ignoreIf
  split
  · exact ignore_values state key
  · rfl

@[simp] theorem set_values_self (state : Resolution) (key : String)
    (value : Option (List String)) :
    (state.set key value).values key = value := by
  simp [Resolution.set]

theorem set_values_other (state : Resolution) {key other : String}
    (value : Option (List String)) (apart : other ≠ key) :
    (state.set key value).values other = state.values other := by
  simp [Resolution.set, apart]

/-! ## Options -/

theorem resolveOption_grows (kind : LegacyRequestKind) (list : List Setting)
    (key : String) (state : Resolution) :
    Grows state (resolveOption kind list key state) := by
  unfold resolveOption
  split
  · exact Grows.refl state
  · split
    · exact Grows.ignoreIf _ _ _
    · split
      · exact Grows.ignoreIf _ _ _
      · split
        · exact Grows.ignore _ _
        · exact Grows.set _ _ _

theorem resolveOption_other (kind : LegacyRequestKind) (list : List Setting)
    (state : Resolution) {key other : String} (apart : other ≠ key) :
    (resolveOption kind list key state).values other = state.values other := by
  unfold resolveOption
  split
  · rfl
  · split
    · simp
    · split
      · simp
      · split
        · simp
        · exact set_values_other state _ apart

theorem resolveOption_self (list : List Setting) {state : Resolution}
    {key : String} (named : key ≠ "no-netrc")
    (fresh : state.values key = none) :
    (resolveOption .http list key state).values key =
      (list.getLast?.bind (requestValue key)).map ([·]) := by
  unfold resolveOption
  cases list.getLast? with
  | none => exact fresh
  | some value =>
      simp only [named, if_false, ne_eq, not_true_eq_false, Option.bind_some]
      cases requestValue key value with
      | none => simpa using fresh
      | some text => simp

theorem resolveOption_none (list : List Setting) {state : Resolution}
    {key : String} (elsewhere : kind ≠ .http) :
    (resolveOption kind list key state).values = state.values := by
  unfold resolveOption
  split
  · rfl
  · split
    · simp
    · simp

/-- An option whose value is not taken over is named. -/
theorem resolveOption_named {value : Setting}
    (found : list.getLast? = some value) (option : key ≠ "no-netrc")
    (dropped : requestValue key value = none) :
    Named (resolveOption .http list key state) key := by
  unfold resolveOption
  simp only [found, option, if_false, ne_eq, not_true_eq_false, dropped]
  exact Named.ignore state key

theorem resolveOption_netrc {value : Setting}
    (found : list.getLast? = some value) (kept : value.isTrue = false) :
    Named (resolveOption kind list "no-netrc" state) "no-netrc" := by
  unfold resolveOption
  simp only [found, if_true, kept, Bool.not_false]
  exact Named.ignoreIf state "no-netrc" rfl

theorem resolveKey_grows (state : Resolution) (key : String) :
    Grows state (resolveKey task system kind state key) := by
  unfold resolveKey
  split
  · exact Grows.refl state
  · exact resolveOption_grows _ _ _ state

theorem resolveKeys_other {keys : List String} (start : Resolution)
    {key : String} (outside : key ∉ keys) :
    (keys.foldl (resolveKey task system kind) start).values key =
      start.values key := by
  induction keys generalizing start with
  | nil => rfl
  | cons head rest induction =>
      rw [List.mem_cons, not_or] at outside
      rw [List.foldl_cons, induction _ outside.2]
      unfold resolveKey
      split
      · rfl
      · exact resolveOption_other _ _ start outside.1

/-- Of distinct options, each is resolved once. -/
theorem resolveKeys_values {keys : List String} (distinct : keys.Nodup)
    (start : Resolution) {key : String} (option : key ≠ "no-netrc")
    (fresh : start.values key = none) :
    (keys.foldl (resolveKey task system .http) start).values key =
      if key ∈ keys ∧ key ≠ "header" then
        ((raw task system key).getLast?.bind (requestValue key)).map ([·])
      else none := by
  induction keys generalizing start with
  | nil => simpa using fresh
  | cons head rest induction =>
      obtain ⟨apart, distinct'⟩ := List.nodup_cons.mp distinct
      rw [List.foldl_cons]
      by_cases same : key = head
      · subst same
        rw [resolveKeys_other _ apart]
        unfold resolveKey
        by_cases isHeader : key = "header"
        · simpa [isHeader] using isHeader ▸ fresh
        · simp [isHeader, resolveOption_self _ option fresh]
      · rw [induction distinct']
        · simp [same]
        · unfold resolveKey
          split
          · exact fresh
          · rw [resolveOption_other _ _ start same]
            exact fresh

theorem resolveKeys_named {keys : List String} (start : Resolution)
    {key : String} {value : Setting} (listed : key ∈ keys)
    (single : key ≠ "header")
    (found : (raw task system key).getLast? = some value)
    (dropped : if key = "no-netrc" then value.isTrue = false
      else requestValue key value = none) :
    Named (keys.foldl (resolveKey task system .http) start) key := by
  obtain ⟨before, after, rfl⟩ := List.append_of_mem listed
  rw [List.foldl_append, List.foldl_cons]
  refine Named.grows ?_ (Grows.foldl resolveKey_grows _ after)
  unfold resolveKey
  rw [if_neg single]
  split at dropped
  · next same =>
      subst same
      exact resolveOption_netrc found dropped
  · next option => exact resolveOption_named found option dropped

/-! ## Lines of headers -/

theorem acceptLine_grows (line : Setting) (state : Resolution × Groups) :
    Grows state.1 (acceptLine line state).1 := by
  unfold acceptLine
  split
  · exact Grows.refl _
  · split
    · exact Grows.ignore _ _
    · split
      · exact Grows.refl _
      · exact Grows.ignore _ _

/-- The lines with a name that may be sent. -/
def wellFormed (headers : List Setting) : List String :=
  (headers.filterMap validRequestText).filter isHeader

theorem validRequestText_text {setting : Setting} {text : String}
    (valid : validRequestText setting = some text) : setting = .text text := by
  cases setting with
  | text value =>
      have parts := Option.ite_none_right_eq_some.mp valid
      exact congrArg Setting.text (Option.some.inj parts.2)
  | _ => cases valid

theorem isBlank_notHeader {line : String} (blank : isBlank line = true) :
    isHeader line = false := by
  have colon : ':' ∉ line.toList := by
    intro inside
    exact absurd (List.all_eq_true.mp blank ':' inside) (by decide)
  simp [isHeader, colon]

/-- A line is skipped, grouped, or left out by name. -/
theorem acceptLine_cases (line : Setting) (state : Resolution × Groups) :
    (isBlankText line = true ∧ wellFormed [line] = [] ∧
        acceptLine line state = state) ∨
      (∃ text, line = .text text ∧ wellFormed [line] = [text] ∧
        acceptLine line state =
          (state.1, Grouping.push state.2 (headerName text) text)) ∨
      (wellFormed [line] = [] ∧
        acceptLine line state = (state.1.ignore "header", state.2)) := by
  unfold acceptLine
  cases blank : isBlankText line with
  | true =>
      refine Or.inl ⟨rfl, ?_, by simp⟩
      cases line with
      | text value =>
          have none : isHeader value = false := isBlank_notHeader blank
          unfold wellFormed
          cases valid : validRequestText (.text value) with
          | none => simp [valid]
          | some text =>
              obtain ⟨rfl⟩ := validRequestText_text valid
              simp [valid, none]
      | _ => cases blank
  | false =>
      apply Or.inr
      simp only [Bool.false_eq_true, if_false]
      cases valid : validRequestText line with
      | none => exact Or.inr ⟨by simp [wellFormed, valid], rfl⟩
      | some text =>
          cases header : isHeader text with
          | false =>
              refine Or.inr ⟨by simp [wellFormed, valid, header], ?_⟩
              simp only [header, Bool.false_eq_true, if_false]
          | true =>
              refine Or.inl ⟨text, validRequestText_text valid, ?_, ?_⟩
              · simp [wellFormed, valid, header]
              · simp only [header, if_true]

theorem readHeaders_concat (headers : List Setting) (line : Setting)
    (state : Resolution) :
    readHeaders (headers ++ [line]) state =
      acceptLine line (readHeaders headers state) := by
  simp [readHeaders]

theorem wellFormed_append (first second : List Setting) :
    wellFormed (first ++ second) = wellFormed first ++ wellFormed second := by
  simp [wellFormed]

/-- Reading leaves the values alone and groups the well-formed lines. -/
theorem readHeaders_sorts (headers : List Setting) (state : Resolution) :
    (readHeaders headers state).1.values = state.values ∧
      Grows state (readHeaders headers state).1 ∧
      Grouping.Sorts headerName (wellFormed headers)
        (readHeaders headers state).2 := by
  induction headers using List.reverseRecOn with
  | nil => exact ⟨rfl, Grows.refl _, Grouping.Sorts.nil headerName⟩
  | append_singleton headers line induction =>
      obtain ⟨same, grows, sorts⟩ := induction
      rw [readHeaders_concat, wellFormed_append]
      have grows' := grows.trans (acceptLine_grows line _)
      rcases acceptLine_cases line (readHeaders headers state) with
        ⟨-, none, step⟩ | ⟨text, -, one, step⟩ | ⟨none, step⟩
      · rw [none, List.append_nil, step]
        exact ⟨same, grows, sorts⟩
      · rw [step] at grows' ⊢
        rw [one]
        exact ⟨same, grows', sorts.push text⟩
      · rw [step] at grows' ⊢
        rw [none, List.append_nil, ignore_values]
        exact ⟨same, grows', sorts⟩

theorem readHeaders_named (headers : List Setting) (state : Resolution) :
    ∀ line ∈ headers, isBlankText line = true ∨
      (∃ text ∈ wellFormed headers, line = .text text) ∨
      Named (readHeaders headers state).1 "header" := by
  induction headers using List.reverseRecOn with
  | nil => simp
  | append_singleton headers last induction =>
      intro line inside
      rw [readHeaders_concat, wellFormed_append]
      rcases List.mem_append.mp inside with old | new
      · rcases induction line old with blank | ⟨text, among, same⟩ | named
        · exact Or.inl blank
        · exact Or.inr (Or.inl ⟨text, List.mem_append_left _ among, same⟩)
        · exact Or.inr (Or.inr (named.grows (acceptLine_grows last _)))
      · rw [List.mem_singleton.mp new]
        rcases acceptLine_cases last (readHeaders headers state) with
          ⟨blank, -, -⟩ | ⟨text, same, one, -⟩ | ⟨-, step⟩
        · exact Or.inl blank
        · exact Or.inr (Or.inl ⟨text, by simp [one], same⟩)
        · rw [step]
          exact Or.inr (Or.inr (Named.ignore _ "header"))

/-! ## Options that give way -/

/-- An option keeps its values or is named; an empty password just goes. -/
def Settled (first last : Resolution) (key : String) : Prop :=
  last.values key = first.values key ∨ Named last key ∨
    (key = "http-passwd" ∧ first.isGiven key = false)

namespace Settled

theorem of_values {first last : Resolution} {key : String}
    (same : last.values = first.values) : Settled first last key :=
  Or.inl (congrFun same key)

theorem trans {first second last : Resolution} {key : String}
    (one : Settled first second key) (two : Settled second last key)
    (grows : Grows second last) : Settled first last key := by
  rcases one with same | named | empty
  · rcases two with same' | named | ⟨password, empty⟩
    · exact Or.inl (same'.trans same)
    · exact Or.inr (Or.inl named)
    · refine Or.inr (Or.inr ⟨password, ?_⟩)
      simpa [Resolution.isGiven, same] using empty
  · exact Or.inr (Or.inl (named.grows grows))
  · exact Or.inr (Or.inr empty)

theorem set {first last : Resolution} {key other : String}
    {value : Option (List String)} (settled : Settled first last key)
    (named : key = other → Named last key ∨
      (key = "http-passwd" ∧ first.isGiven key = false)) :
    Settled first (last.set other value) key := by
  by_cases same : key = other
  · rcases named same with named | empty
    · exact Or.inr (Or.inl named)
    · exact Or.inr (Or.inr empty)
  · rcases settled with kept | named | empty
    · exact Or.inl ((set_values_other last value same).trans kept)
    · exact Or.inr (Or.inl named)
    · exact Or.inr (Or.inr empty)

end Settled

theorem yieldTo_grows (groups : Groups) (option header : String)
    (state : Resolution) :
    Grows state (yieldTo groups option header state) := by
  unfold yieldTo
  split
  · split
    · exact (Grows.ignore state option).trans (Grows.ignoreIf _ _ _)
    · exact Grows.ignore state option
  · exact Grows.refl state

theorem yieldTo_settled (groups : Groups) (option header : String)
    (state : Resolution) (key : String) :
    Settled state (yieldTo groups option header state) key := by
  unfold yieldTo
  split
  · split
    · apply Settled.set
      · apply Settled.set
        · exact Settled.of_values (by simp)
        · intro password
          cases given : state.isGiven "http-passwd" with
          | true =>
              rw [password]
              exact Or.inl (Named.ignoreIf _ _ rfl)
          | false => exact Or.inr ⟨password, password ▸ given⟩
      · intro same
        rw [same]
        exact Or.inl ((Named.ignore state option).grows (Grows.ignoreIf _ _ _))
    · apply Settled.set
      · exact Settled.of_values (by simp)
      · intro same
        rw [same]
        exact Or.inl (Named.ignore state option)
  · exact Settled.of_values rfl

theorem dropPassword_grows (state : Resolution) :
    Grows state (dropPassword state) := by
  unfold dropPassword
  split
  · exact Grows.ignore state "http-passwd"
  · exact Grows.refl state

theorem dropPassword_settled (state : Resolution) (key : String) :
    Settled state (dropPassword state) key := by
  unfold dropPassword
  split
  · apply Settled.set
    · exact Settled.of_values (by simp)
    · intro same
      rw [same]
      exact Or.inl (Named.ignore state "http-passwd")
  · exact Settled.of_values rfl

theorem isGiven_congr {first last : Resolution} {key : String}
    (same : last.values key = first.values key) :
    last.isGiven key = first.isGiven key := by
  simp [Resolution.isGiven, same]

@[simp] theorem isGiven_set_none (state : Resolution) (key : String) :
    (state.set key none).isGiven key = false := by
  simp [Resolution.isGiven]

/-- An option and the header that takes its place do not stand together. -/
theorem yieldTo_apart (groups : Groups) (option header : String)
    (state : Resolution)
    (headed : groups.any (fun group => group.1 == header) = true) :
    (yieldTo groups option header state).isGiven option = false := by
  unfold yieldTo
  rw [headed, Bool.and_true]
  split
  · split
    · simp
    · simp
  · next absent => exact Bool.eq_false_iff.mpr absent

theorem yieldTo_values (groups : Groups) (header : String)
    (state : Resolution) {option key : String} (apart : key ≠ option)
    (password : key ≠ "http-passwd") :
    (yieldTo groups option header state).values key = state.values key := by
  unfold yieldTo
  split
  · split
    · rw [set_values_other _ _ apart, set_values_other _ _ password,
        ignoreIf_values, ignore_values]
    · rw [set_values_other _ _ apart, ignore_values]
  · rfl

theorem dropPassword_values (state : Resolution) {key : String}
    (apart : key ≠ "http-passwd") :
    (dropPassword state).values key = state.values key := by
  unfold dropPassword
  split
  · rw [set_values_other _ _ apart, ignore_values]
  · rfl

theorem dropPassword_paired (state : Resolution)
    (password : (dropPassword state).isGiven "http-passwd" = true) :
    (dropPassword state).isGiven "http-user" = true := by
  rw [isGiven_congr (dropPassword_values state (by decide))]
  unfold dropPassword at password
  cases user : state.isGiven "http-user" with
  | true => rfl
  | false =>
      cases given : state.isGiven "http-passwd" with
      | true => simp [user, given] at password
      | false => simp [user, given] at password

theorem giveWay_grows (groups : Groups) (state : Resolution) :
    Grows state (giveWay groups state) :=
  ((yieldTo_grows _ _ _ state).trans (yieldTo_grows _ _ _ _)).trans
    (dropPassword_grows _)

theorem giveWay_settled (groups : Groups) (state : Resolution)
    (key : String) : Settled state (giveWay groups state) key := by
  have referer := yieldTo_settled groups "referer" "referer" state key
  have user := referer.trans (yieldTo_settled groups _ "authorization" _ key)
    (yieldTo_grows groups "http-user" "authorization" _)
  exact user.trans (dropPassword_settled _ key) (dropPassword_grows _)

theorem giveWay_header (groups : Groups) (state : Resolution) :
    (giveWay groups state).values "header" = state.values "header" := by
  unfold giveWay
  rw [dropPassword_values _ (by decide),
    yieldTo_values _ _ _ (by decide) (by decide),
    yieldTo_values _ _ _ (by decide) (by decide)]

theorem giveWay_referer {groups : Groups} (state : Resolution)
    (headed : groups.any (fun group => group.1 == "referer") = true) :
    (giveWay groups state).isGiven "referer" = false := by
  unfold giveWay
  rw [isGiven_congr (dropPassword_values _ (by decide)),
    isGiven_congr (yieldTo_values _ _ _ (by decide) (by decide))]
  exact yieldTo_apart groups "referer" "referer" state headed

theorem giveWay_user {groups : Groups} (state : Resolution)
    (headed : groups.any (fun group => group.1 == "authorization") = true) :
    (giveWay groups state).isGiven "http-user" = false := by
  unfold giveWay
  rw [isGiven_congr (dropPassword_values _ (by decide))]
  exact yieldTo_apart groups "http-user" "authorization" _ headed

theorem placeHeaders_values (groups : Groups) (state : Resolution)
    {key : String} (apart : key ≠ "header") :
    (placeHeaders groups state).values key =
      (giveWay (groups.filter fun group => decide (group.2.length ≤ 1))
        state).values key := by
  simp only [placeHeaders]
  split
  · rfl
  · exact set_values_other _ _ apart

theorem placeHeaders_grows (groups : Groups) (state : Resolution) :
    Grows state (placeHeaders groups state) := by
  simp only [placeHeaders]
  split
  · exact giveWay_grows _ state
  · exact (giveWay_grows _ state).trans (Grows.set _ _ _)

theorem placeHeaders_settled (groups : Groups) (state : Resolution)
    {key : String} (apart : key ≠ "header") :
    Settled state (placeHeaders groups state) key := by
  have settled := giveWay_settled
    (groups.filter fun group => decide (group.2.length ≤ 1)) state key
  simp only [placeHeaders]
  split
  · exact settled
  · exact settled.set fun same => absurd same apart

theorem placeHeaders_header (groups : Groups) {state : Resolution}
    (fresh : state.values "header" = none) :
    ((placeHeaders groups state).values "header").getD [] =
      Grouping.singles groups := by
  simp only [placeHeaders]
  split
  · next empty =>
      rw [giveWay_header, fresh]
      exact (List.isEmpty_iff.mp empty).symm
  · rw [set_values_self]
    rfl

/-- No option is given that stands for one of the headers. -/
theorem placeHeaders_apart {groups : Groups} {headers : List String}
    (sorts : Grouping.Sorts headerName headers groups) (state : Resolution)
    {option header : String} (apart : option ≠ "header")
    (way : ∀ {byName : Groups},
      byName.any (fun group => group.1 == header) = true →
        (giveWay byName state).isGiven option = false)
    (given : (placeHeaders groups state).isGiven option = true) :
    ∀ line ∈ Grouping.singles groups, headerName line ≠ header := by
  intro line inside named
  have headed : (Grouping.singles groups).any
      (fun line => headerName line == header) = true :=
    List.any_eq_true.mpr ⟨line, inside, beq_iff_eq.mpr named⟩
  rw [← sorts.any_short] at headed
  rw [isGiven_congr (placeHeaders_values groups state apart),
    way headed] at given
  cases given

/-- What the resolution of the headers makes of the options before it. -/
structure HeadersResolved (headers : List Setting) (first last : Resolution)
    (accepted : List String) : Prop where
  grows : Grows first last
  settled : ∀ key ≠ "header", Settled first last key
  value : (last.values "header").getD [] = accepted
  distinct : (accepted.map headerName).Nodup
  lines : ∀ line, line ∈ accepted ↔ line ∈ wellFormed headers ∧
    ((wellFormed headers).filter fun other =>
      headerName other = headerName line).length ≤ 1
  referer : last.isGiven "referer" = true →
    ∀ line ∈ accepted, headerName line ≠ "referer"
  authorization : last.isGiven "http-user" = true →
    ∀ line ∈ accepted, headerName line ≠ "authorization"
  password : last.isGiven "http-passwd" = true →
    last.isGiven "http-user" = true
  named : ∀ line ∈ headers, isBlankText line = true ∨
    (∃ text ∈ accepted, line = .text text) ∨ Named last "header"

theorem resolveHeaders_resolved (headers : List Setting)
    {state : Resolution} (fresh : state.values "header" = none) :
    ∃ accepted,
      HeadersResolved headers state (resolveHeaders headers state)
        accepted := by
  obtain ⟨same, grows, sorts⟩ := readHeaders_sorts headers state
  have lost := readHeaders_named headers state
  unfold resolveHeaders
  generalize readHeaders headers state = read at same grows sorts lost ⊢
  obtain ⟨seen, groups⟩ := read
  simp only at same grows sorts lost ⊢
  generalize isTwice :
    groups.any (fun group => decide (1 < group.2.length)) = twice
  have seenGrows := Grows.ignoreIf seen twice "header"
  have lastGrows := placeHeaders_grows groups (seen.ignoreIf twice "header")
  have values : (seen.ignoreIf twice "header").values = state.values := by
    rw [ignoreIf_values, same]
  refine ⟨Grouping.singles groups, ?_⟩
  exact {
    grows := (grows.trans seenGrows).trans lastGrows
    settled := fun key apart =>
      (Settled.of_values values).trans (placeHeaders_settled _ _ apart)
        lastGrows
    value := placeHeaders_header groups (by rw [values, fresh])
    distinct := sorts.singles_distinct
    lines := fun line => sorts.mem_singles
    referer := placeHeaders_apart sorts _ (by decide)
      fun headed => giveWay_referer _ headed
    authorization := placeHeaders_apart sorts _ (by decide)
      fun headed => giveWay_user _ headed
    password := by
      rw [isGiven_congr (placeHeaders_values groups _ (by decide)),
        isGiven_congr (placeHeaders_values groups _ (by decide))]
      exact dropPassword_paired _
    named := by
      intro line inside
      rcases lost line inside with blank | ⟨text, among, equal⟩ | named
      · exact Or.inl blank
      · by_cases kept : text ∈ Grouping.singles groups
        · exact Or.inr (Or.inl ⟨text, kept, equal⟩)
        · have company := isTwice.symm.trans (sorts.company among kept)
          have named := Named.ignoreIf seen "header" company
          exact Or.inr (Or.inr (named.grows lastGrows))
      · exact Or.inr (Or.inr (named.grows (seenGrows.trans lastGrows))) }

/-! ## The resolution as a whole -/

theorem ignoreSystem_grows (system : SystemSettings) (keys : List String)
    (state : Resolution) :
    Grows state (keys.foldl
      (fun state key => state.ignoreIf (ignoresSystem system key) key)
      state) :=
  Grows.foldl (fun state key => Grows.ignoreIf state _ key) state keys

theorem ignoreSystem_values (system : SystemSettings)
    (ignored : List String) :
    (ignoreSystem system ignored).values = fun _ => none := by
  unfold ignoreSystem
  generalize system.map Prod.fst = keys
  induction keys using List.reverseRecOn with
  | nil => rfl
  | append_singleton keys key induction =>
      rw [List.foldl_append]
      simpa using induction

theorem ignoreSystem_named {ignored : List String}
    (listed : key ∈ system.map Prod.fst)
    (left : ignoresSystem system key = true) :
    Named (ignoreSystem system ignored) key := by
  unfold ignoreSystem
  obtain ⟨before, after, split⟩ := List.append_of_mem listed
  rw [split, List.foldl_append, List.foldl_cons]
  exact (Named.ignoreIf _ key left).grows
    (ignoreSystem_grows system after _)

theorem resolveOptions_grows (task : TaskValues) (ignored : List String)
    (system : SystemSettings) (kind : LegacyRequestKind) :
    Grows (ignoreSystem system ignored)
      (resolveOptions task ignored system kind) :=
  Grows.foldl resolveKey_grows _ _

theorem resolveOptions_header (ignored : List String) :
    (resolveOptions task ignored system .http).values "header" = none := by
  unfold resolveOptions
  rw [resolveKeys_values (by decide) _ (by decide)
    (congrFun (ignoreSystem_values system ignored) _)]
  simp

theorem resolveOptions_none (task : TaskValues) (ignored : List String)
    (system : SystemSettings) (elsewhere : kind ≠ .http) :
    (resolveOptions task ignored system kind).values = fun _ => none := by
  unfold resolveOptions
  rw [← ignoreSystem_values system ignored]
  generalize ignoreSystem system ignored = start
  generalize LEGACY_REQUEST_OPTIONS = keys
  induction keys generalizing start with
  | nil => rfl
  | cons key rest induction =>
      rw [List.foldl_cons, induction]
      unfold resolveKey
      split
      · rfl
      · exact resolveOption_none _ elsewhere

/-- A value that is taken over stays as it is, but for blank ones. -/
theorem requestValue_text {value : Setting} {text : String}
    (taken : requestValue key value = some text) :
    ∃ given, value = .text given ∧ (text = given ∨
      (text = "" ∧ isBlank given = true ∧ isCredential key = false)) := by
  obtain ⟨given, valid, rest⟩ := Option.bind_eq_some_iff.mp taken
  refine ⟨given, validRequestText_text valid, ?_⟩
  split at rest
  · cases rest
  · have same := Option.some.inj rest
    split at same
    · next blank =>
        rw [Bool.and_eq_true, Bool.not_eq_true'] at blank
        exact Or.inr ⟨same.symm, blank⟩
    · exact Or.inl same.symm

/-- A value was taken over; a true `no-netrc` asks for nothing. -/
def Kept (values : String → Option (List String)) (key : String)
    (value : Setting) : Prop :=
  (∃ given, value = .text given ∧ (values key = some [given] ∨
    (values key = some [""] ∧ isBlank given = true ∧
      isCredential key = false))) ∨
  (key = "no-netrc" ∧ value.isTrue = true)

theorem resolveOptions_kept {ignored : List String} {value : Setting}
    (listed : key ∈ LEGACY_REQUEST_OPTIONS) (single : key ≠ "header")
    (found : (raw task system key).getLast? = some value)
    (filled : value.isText "" = false)
    (grows : Grows (resolveOptions task ignored system .http) last)
    (settled : Settled (resolveOptions task ignored system .http) last key) :
    Kept last.values key value ∨ Named last key := by
  by_cases netrc : key = "no-netrc"
  · cases isTrue : value.isTrue with
    | true => exact Or.inl (Or.inr ⟨netrc, isTrue⟩)
    | false =>
        apply Or.inr
        apply Named.grows _ grows
        apply resolveKeys_named _ listed single found
        simpa [netrc] using isTrue
  · cases taken : requestValue key value with
    | none =>
        apply Or.inr
        apply Named.grows _ grows
        apply resolveKeys_named _ listed single found
        simpa [netrc] using taken
    | some text =>
        have before : (resolveOptions task ignored system .http).values key =
            some [text] := by
          unfold resolveOptions
          rw [resolveKeys_values (by decide) _ netrc
            (congrFun (ignoreSystem_values system ignored) _)]
          simp [listed, single, found, taken]
        obtain ⟨given, same, kept⟩ := requestValue_text taken
        rcases settled with stays | named | ⟨password, empty⟩
        · refine Or.inl (Or.inl ⟨given, same, ?_⟩)
          rw [stays, before]
          rcases kept with rfl | ⟨rfl, blank⟩
          · exact Or.inl rfl
          · exact Or.inr ⟨rfl, blank⟩
        · exact Or.inr named
        · have nothing : text = "" := by
            simpa [Resolution.isGiven, before] using empty
          rcases kept with equal | ⟨-, -, credential⟩
          · rw [same, ← equal, nothing] at filled
            exact absurd filled (by simp [Setting.isText])
          · rw [password] at credential
            exact absurd credential (by decide)

/-- What is asked of the settings of a task over HTTP. -/
structure Resolved.Fits (task : TaskValues) (ignored : List String)
    (system : SystemSettings) (resolved : Resolved) : Prop where
  distinct : (resolved.accepted.map headerName).Nodup
  sendable : ∀ line ∈ resolved.accepted, isHeader line = true
  lines : ∀ line, line ∈ resolved.accepted ↔
    line ∈ wellFormed (allHeaders task system) ∧
      ((wellFormed (allHeaders task system)).filter fun other =>
        headerName other = headerName line).length ≤ 1
  referer : resolved.isGiven "referer" = true →
    ∀ line ∈ resolved.accepted, headerName line ≠ "referer"
  authorization : resolved.isGiven "http-user" = true →
    ∀ line ∈ resolved.accepted, headerName line ≠ "authorization"
  password : resolved.isGiven "http-passwd" = true →
    resolved.isGiven "http-user" = true
  earlier : ignored ⊆ resolved.ignoredOptions
  systemNames : resolved.ignoredOptions.length < 64 →
    ∀ key ∈ system.map Prod.fst, ignoresSystem system key = true →
      safeOptionName key = true → key ∈ resolved.ignoredOptions
  options : resolved.ignoredOptions.length < 64 →
    ∀ key ∈ LEGACY_REQUEST_OPTIONS, key ≠ "header" → ∀ value,
      (raw task system key).getLast? = some value →
        value.isText "" = false →
          Kept resolved.values key value ∨ key ∈ resolved.ignoredOptions
  headers : resolved.ignoredOptions.length < 64 →
    ∀ line ∈ allHeaders task system, isBlankText line = true ∨
      (∃ text ∈ resolved.accepted, line = .text text) ∨
        "header" ∈ resolved.ignoredOptions

/-- Over HTTP the settings fit together and nothing goes unnamed; elsewhere
there are none. -/
theorem requestSettings_resolved (task : TaskValues) (ignored : List String)
    (system : SystemSettings) (kind : LegacyRequestKind) :
    let resolved := resolveLegacyRequestSettings task ignored system kind
    (kind = .http → resolved.Fits task ignored system) ∧
      (kind ≠ .http → ∀ key, resolved.values key = none) := by
  intro resolved
  constructor
  · rintro rfl
    obtain ⟨accepted, headers⟩ := resolveHeaders_resolved
      (allHeaders task system) (resolveOptions_header ignored)
    generalize isLast : resolveHeaders (allHeaders task system)
      (resolveOptions task ignored system .http) = last at headers
    obtain rfl := headers.value
    have systemGrows :=
      (resolveOptions_grows task ignored system .http).trans headers.grows
    have safe : ∀ key ∈ LEGACY_REQUEST_OPTIONS,
        safeOptionName key = true := by decide
    simp only [resolved, resolveLegacyRequestSettings, ne_eq,
      not_true_eq_false, if_false, isLast]
    exact {
      distinct := headers.distinct
      sendable := by
        intro line inside
        have member := ((headers.lines line).mp inside).1
        exact (List.mem_filter.mp member).2
      lines := headers.lines
      referer := headers.referer
      authorization := headers.authorization
      password := headers.password
      earlier := by
        intro key inside
        apply systemGrows.1
        apply (ignoreSystem_grows system _ _).1
        exact List.mem_eraseDups.mpr inside
      systemNames := by
        intro room key listed left safe
        exact ((ignoreSystem_named listed left).grows systemGrows).mem room safe
      options := by
        intro room key listed single value found filled
        rcases resolveOptions_kept listed single found filled headers.grows
          (headers.settled key single) with kept | named
        · exact Or.inl kept
        · exact Or.inr (named.mem room (safe key listed))
      headers := by
        intro room line inside
        rcases headers.named line inside with blank | taken | named
        · exact Or.inl blank
        · exact Or.inr (Or.inl taken)
        · exact Or.inr (Or.inr (named.mem room (by decide))) }
  · intro elsewhere key
    simp [resolved, resolveLegacyRequestSettings, elsewhere,
      resolveOptions_none task ignored system elsewhere]

/-- An empty password of the task stays without a user. -/
theorem emptyPassword_stays :
    ∃ task system, ((resolveLegacyRequestSettings task [] system .http).values
        "http-passwd").isSome = true ∧
      (resolveLegacyRequestSettings task [] system .http).isGiven
        "http-user" = false :=
  ⟨[("http-passwd", [""])], [], by decide, by decide⟩

end Motrix.Legacy
