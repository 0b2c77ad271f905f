import Mathlib.Data.List.Perm.Basic
import Mathlib.Logic.Function.Basic
import Motrix.Lib.LastWrite
import Motrix.Lib.Utf16

/-!
# Cookies of a download task

The cookies that a caller gives are checked one by one.  A valid one replaces
an earlier one of its host, path and name; all that is not handed to the engine
is reported by its position.
-/

namespace Motrix.TaskCookies

open Lib Lib.Utf16

abbrev Text := List UInt16

def text (literal : String) : Text :=
  encode literal.toList

/-! ## The schema -/

/-- A number that is no whole one, null and objects are other values. -/
inductive JsValue where
  | undefined
  | string (value : Text)
  | boolean (value : Bool)
  | integer (value : Int)
  | other
  deriving DecidableEq

structure RawCookie where
  name : JsValue
  value : JsValue
  domain : JsValue
  path : JsValue
  hostOnly : JsValue
  secure : JsValue
  httpOnly : JsValue
  expiresAt : JsValue
  deriving DecidableEq

structure DownloadCookie where
  name : Text
  value : Text
  domain : Text
  path : Option Text
  hostOnly : Option Bool
  secure : Option Bool
  httpOnly : Option Bool
  expiresAt : Option Nat
  deriving DecidableEq

namespace JsValue

def asString : JsValue → Option Text
  | .string value => some value
  | _ => none

def asBoolean : JsValue → Option Bool
  | .boolean value => some value
  | _ => none

/-- A whole number from zero to the largest safe one. -/
def asInstant : JsValue → Option Nat
  | .integer value =>
      if 0 ≤ value ∧ value ≤ 9007199254740991 then some value.toNat else none
  | _ => none

def optional {Value : Type} (read : JsValue → Option Value) :
    JsValue → Option (Option Value)
  | .undefined => some none
  | value => (read value).map some

/-- The field of an issue, or what the field holds. -/
def field {Value : Type} (name : String) : Option Value → Except String Value
  | some value => .ok value
  | none => .error name

end JsValue

/-- `cookieSchema.safeParse`; an error names the field of the first issue. -/
def safeParse : Option RawCookie → Except String DownloadCookie
  | none => .error "cookie"
  | some input => do
      let name ← JsValue.field "name" input.name.asString
      let value ← JsValue.field "value" input.value.asString
      let domain ← JsValue.field "domain" input.domain.asString
      let path ← JsValue.field "path" (input.path.optional JsValue.asString)
      let hostOnly ← JsValue.field "hostOnly"
        (input.hostOnly.optional JsValue.asBoolean)
      let secure ← JsValue.field "secure"
        (input.secure.optional JsValue.asBoolean)
      let httpOnly ← JsValue.field "httpOnly"
        (input.httpOnly.optional JsValue.asBoolean)
      let expiresAt ← JsValue.field "expiresAt"
        (input.expiresAt.optional JsValue.asInstant)
      pure
        { name
          value
          domain
          path
          hostOnly
          secure
          httpOnly
          expiresAt }

/-! ## The checks of one cookie -/

inductive Reason where
  | type
  | syntactic
  | size
  | domain
  | expiry
  | count
  | expired
  | duplicate
  | noUsableCookies
  deriving DecidableEq

structure TaskCookieDiagnostic where
  index : Int
  field : String
  reason : Reason
  byteLength : Option Nat := none
  deriving DecidableEq

/-- What is wrong with a cookie, wherever it stands. -/
structure Invalid where
  field : String
  reason : Reason
  byteLength : Option Nat := none
  deriving DecidableEq

def isWellFormed (value : Text) : Bool :=
  (codePoints value).all fun point => point < 0xD800 || 0xDFFF < point

def isAlphanumeric (unit : UInt16) : Bool :=
  0x30 ≤ unit && unit ≤ 0x39 || 0x41 ≤ unit && unit ≤ 0x5a ||
    0x61 ≤ unit && unit ≤ 0x7a

/-- ``/^[!#$%&'*+\-.^_`|~0-9A-Za-z]+$/`` -/
def tokenName (name : Text) : Bool :=
  !name.isEmpty && name.all fun unit =>
    isAlphanumeric unit ||
      [0x21, 0x23, 0x24, 0x25, 0x26, 0x27, 0x2a, 0x2b, 0x2d, 0x2e, 0x5e, 0x5f,
        0x60, 0x7c, 0x7e].contains unit

/-- `/[\x00-\x1f\x7f;]/` -/
def unsafeValue (value : Text) : Bool :=
  value.any fun unit => unit ≤ 0x1f || unit == 0x7f || unit == 0x3b

/-- One leading dot goes and only ASCII letters are folded. -/
def canonicalHost (domain : Text) : Text :=
  (if domain.head? = some 0x2e then domain.tail else domain).map fun unit =>
    if 0x41 ≤ unit && unit ≤ 0x5a then unit + 0x20 else unit

def DownloadCookie.usedPath (cookie : DownloadCookie) : Text :=
  cookie.path.getD (text "/")

def isInvalidHost (isIP : Text → Bool) (host : Text) : Bool :=
  host.isEmpty || host.head? == some 0x2e || host.getLast? == some 0x2e ||
    host.tails.any (fun tail => (text "..").isPrefixOf tail) ||
    !isIP host && host.any fun unit =>
      !(0x61 ≤ unit && unit ≤ 0x7a || 0x30 ≤ unit && unit ≤ 0x39 ||
        unit == 0x2e || unit == 0x2d)

def failing (failed : Bool) (invalid : Invalid) : List Invalid :=
  if failed then [invalid] else []

/-- All that is wrong, in the order of the checks. -/
def invalids (isIP : Text → Bool) (cookie : DownloadCookie) :
    List Invalid :=
  let path := cookie.usedPath
  let bytes := byteLength cookie.name + byteLength cookie.value
  [("name", cookie.name), ("value", cookie.value), ("domain", cookie.domain),
      ("path", path)].flatMap
    (fun entry => failing (!isWellFormed entry.2) ⟨entry.1, .syntactic, none⟩) ++
  failing (4096 < bytes) ⟨"nameValue", .size, some bytes⟩ ++
  failing (!tokenName cookie.name) ⟨"name", .syntactic, none⟩ ++
  failing (unsafeValue cookie.value) ⟨"value", .syntactic, none⟩ ++
  failing (unsafeValue path || path.head? != some 0x2f)
    ⟨"path", .syntactic, none⟩ ++
  failing (254 < byteLength cookie.domain)
    ⟨"domain", .size, some (byteLength cookie.domain)⟩ ++
  failing (4096 < byteLength path) ⟨"path", .size, some (byteLength path)⟩ ++
  failing (isInvalidHost isIP (canonicalHost cookie.domain))
    ⟨"domain", .domain, none⟩

structure Entry where
  cookie : DownloadCookie
  host : Text
  index : Nat
  deriving DecidableEq

/-- The canonical host, the path and the name. -/
def Entry.identity (entry : Entry) : Text × Text × Text :=
  (entry.host, entry.cookie.usedPath, entry.cookie.name)

def validate (isIP : Text → Bool) (now : Int) (index : Nat)
    (cookie : DownloadCookie) : Except TaskCookieDiagnostic Entry :=
  if cookie.expiresAt.any fun expiresAt => (expiresAt : Int) ≤ now then
    .error ⟨index, "expiresAt", .expired, none⟩
  else
    match (invalids isIP cookie).head? with
    | some invalid =>
        .error ⟨index, invalid.field, invalid.reason, invalid.byteLength⟩
    | none => .ok ⟨cookie, canonicalHost cookie.domain, index⟩

/-- What becomes of one input before it meets the others. -/
def classify (isIP : Text → Bool) (now : Int) (index : Nat)
    (input : Option RawCookie) : Except TaskCookieDiagnostic Entry :=
  match safeParse input with
  | .error field =>
      .error ⟨index, field, if field = "expiresAt" then .expiry else .type,
        none⟩
  | .ok cookie => validate isIP now index cookie

/-! ## All cookies of a task -/

structure Collected where
  discarded : List TaskCookieDiagnostic
  retained : List Entry

def collect (isIP : Text → Bool) (now : Int) (collected : Collected)
    (input : Option RawCookie × Nat) : Collected :=
  match classify isIP now input.2 input.1 with
  | .error diagnostic =>
      { collected with discarded := collected.discarded ++ [diagnostic] }
  | .ok entry =>
      let previous := collected.retained.find? fun old =>
        old.identity = entry.identity
      { discarded := collected.discarded ++ previous.toList.map fun old =>
          ⟨old.index, "cookie", .duplicate, none⟩
        retained := Lib.insert Entry.identity collected.retained entry }

/-- The first entry that is one too many for its host. -/
def crowded (domains : Text → Nat) : List Entry → Option Entry
  | [] => none
  | entry :: rest =>
      let count := domains entry.host + 1
      if 50 < count then some entry
      else crowded (Function.update domains entry.host count) rest

structure PreparedDownloadCookies where
  cookies : List DownloadCookie
  discarded : List TaskCookieDiagnostic
  deriving DecidableEq

/-- No value stands for cookies that are no array. -/
def prepareAria2TaskCookies (isIP : Text → Bool)
    (cookies : Option (List (Option RawCookie))) (now : Int) :
    Except TaskCookieDiagnostic PreparedDownloadCookies :=
  match cookies with
  | none => .error ⟨-1, "cookies", .type, none⟩
  | some cookies =>
      let collected := cookies.zipIdx.foldl (collect isIP now) ⟨[], []⟩
      if collected.retained.isEmpty && collected.discarded.any (fun diagnostic =>
          diagnostic.reason != .expired && diagnostic.reason != .duplicate) then
        .error ⟨-1, "cookies", .noUsableCookies, none⟩
      else if 300 < collected.retained.length then
        .error ⟨-1, "cookies", .count, none⟩
      else
        match crowded (fun _ => 0) collected.retained with
        | some entry => .error ⟨entry.index, "domain", .count, none⟩
        | none =>
            .ok
              { cookies := collected.retained.map (·.cookie)
                discarded := collected.discarded }

/-! ## One cookie -/

section One

variable {isIP : Text → Bool} {now : Int}

/-- A parsed cookie as an input. -/
def DownloadCookie.toRaw (cookie : DownloadCookie) : RawCookie where
  name := .string cookie.name
  value := .string cookie.value
  domain := .string cookie.domain
  path := (cookie.path.map JsValue.string).getD .undefined
  hostOnly := (cookie.hostOnly.map JsValue.boolean).getD .undefined
  secure := (cookie.secure.map JsValue.boolean).getD .undefined
  httpOnly := (cookie.httpOnly.map JsValue.boolean).getD .undefined
  expiresAt := (cookie.expiresAt.map fun value =>
    JsValue.integer value).getD .undefined

theorem asInstant_bound {value : JsValue} {instant : Nat}
    (reads : value.asInstant = some instant) :
    instant ≤ 9007199254740991 := by
  cases value with
  | integer number =>
      simp only [JsValue.asInstant] at reads
      split at reads
      · cases reads
        omega
      · cases reads
  | _ => cases reads

theorem field_ok {Value : Type} {name : String} {read : Option Value}
    {value : Value} (holds : JsValue.field name read = .ok value) :
    read = some value := by
  cases read with
  | none => cases holds
  | some found =>
      cases holds
      rfl

theorem bind_ok {First Second : Type} {first : Except String First}
    {next : First → Except String Second} {result : Second}
    (runs : (first >>= next) = .ok result) :
    ∃ value, first = .ok value ∧ next value = .ok result := by
  cases first with
  | error name => cases runs
  | ok value => exact ⟨value, rfl, runs⟩

/-- A parsed instant is in the range of the schema. -/
theorem safeParse_instant {input : Option RawCookie} {cookie : DownloadCookie}
    (parses : safeParse input = .ok cookie) :
    ∀ instant ∈ cookie.expiresAt, instant ≤ 9007199254740991 := by
  cases input with
  | none => cases parses
  | some input =>
      unfold safeParse at parses
      obtain ⟨_, -, parses⟩ := bind_ok parses
      obtain ⟨_, -, parses⟩ := bind_ok parses
      obtain ⟨_, -, parses⟩ := bind_ok parses
      obtain ⟨_, -, parses⟩ := bind_ok parses
      obtain ⟨_, -, parses⟩ := bind_ok parses
      obtain ⟨_, -, parses⟩ := bind_ok parses
      obtain ⟨_, -, parses⟩ := bind_ok parses
      obtain ⟨expiresAt, reads, parses⟩ := bind_ok parses
      cases parses
      intro instant member
      have reads := field_ok reads
      cases member
      cases value : input.expiresAt with
      | undefined => simp [value, JsValue.optional] at reads
      | _ =>
          simp only [value, JsValue.optional, Option.map_eq_some_iff] at reads
          obtain ⟨found, reads, same⟩ := reads
          cases same
          exact asInstant_bound reads

theorem safeParse_toRaw {cookie : DownloadCookie}
    (bound : ∀ instant ∈ cookie.expiresAt, instant ≤ 9007199254740991) :
    safeParse (some cookie.toRaw) = .ok cookie := by
  obtain ⟨name, value, domain, path, hostOnly, secure, httpOnly, expiresAt⟩ :=
    cookie
  have instant : (DownloadCookie.toRaw ⟨name, value, domain, path, hostOnly,
      secure, httpOnly, expiresAt⟩).expiresAt.optional JsValue.asInstant =
        some expiresAt := by
    cases expiresAt with
    | none => rfl
    | some instant =>
        have small : instant ≤ 9007199254740991 := bound instant rfl
        simp [DownloadCookie.toRaw, JsValue.optional, JsValue.asInstant]
        omega
  simp only [safeParse, instant]
  cases path <;> cases hostOnly <;> cases secure <;> cases httpOnly <;> rfl

theorem validate_index {index : Nat} {cookie : DownloadCookie} {entry : Entry}
    (valid : validate isIP now index cookie = .ok entry) (other : Nat) :
    entry = ⟨cookie, canonicalHost cookie.domain, index⟩ ∧
      validate isIP now other cookie =
        .ok ⟨cookie, canonicalHost cookie.domain, other⟩ := by
  unfold validate at valid ⊢
  split at valid
  · cases valid
  · next fresh =>
      rw [if_neg fresh]
      cases wrong : (invalids isIP cookie).head? with
      | some invalid => simp [wrong] at valid
      | none =>
          simp only [wrong] at valid
          cases valid
          exact ⟨rfl, rfl⟩

theorem classify_index {index : Nat} {input : Option RawCookie}
    {diagnostic : TaskCookieDiagnostic}
    (wrong : classify isIP now index input = .error diagnostic) :
    diagnostic.index = index := by
  unfold classify at wrong
  cases parsed : safeParse input with
  | error field =>
      simp only [parsed] at wrong
      cases wrong
      rfl
  | ok cookie =>
      simp only [parsed, validate] at wrong
      split at wrong
      · cases wrong
        rfl
      · cases head : (invalids isIP cookie).head? with
        | none => simp [head] at wrong
        | some invalid =>
            simp only [head] at wrong
            cases wrong
            rfl

/-- A retained cookie is valid wherever it is given again. -/
theorem classify_again {index : Nat} {input : Option RawCookie}
    {entry : Entry} (valid : classify isIP now index input = .ok entry)
    (other : Nat) :
    entry.index = index ∧
      classify isIP now other (some entry.cookie.toRaw) =
        .ok { entry with index := other } := by
  unfold classify at valid
  cases parsed : safeParse input with
  | error field => simp [parsed] at valid
  | ok cookie =>
      simp only [parsed] at valid
      obtain ⟨same, again⟩ := validate_index valid other
      subst same
      refine ⟨rfl, ?_⟩
      rw [classify, safeParse_toRaw (safeParse_instant parsed)]
      exact again

end One

/-! ## All cookies -/

section All

variable {isIP : Text → Bool} {now : Int}

/-- The valid inputs, in their order. -/
def validEntries (isIP : Text → Bool) (now : Int)
    (cookies : List (Option RawCookie)) : List Entry :=
  cookies.zipIdx.filterMap fun input =>
    (classify isIP now input.2 input.1).toOption

theorem collect_retained (isIP : Text → Bool) (now : Int)
    (inputs : List (Option RawCookie × Nat))
    (start : Collected) :
    (inputs.foldl (collect isIP now) start).retained =
      (inputs.filterMap fun input =>
        (classify isIP now input.2 input.1).toOption).foldl
          (Lib.insert Entry.identity) start.retained := by
  induction inputs generalizing start with
  | nil => rfl
  | cons input rest induction =>
      rw [List.foldl_cons, induction, List.filterMap_cons]
      unfold collect
      cases classify isIP now input.2 input.1 with
      | error diagnostic => rfl
      | ok entry => rfl

/-- Every input is retained or reported, and only once. -/
theorem collect_partition (isIP : Text → Bool) (now : Int)
    (inputs : List (Option RawCookie × Nat)) :
    let collected := inputs.foldl (collect isIP now) ⟨[], []⟩
    (collected.retained.map (fun entry => (entry.index : Int)) ++
      collected.discarded.map (·.index)).Perm
        (inputs.map fun input => (input.2 : Int)) := by
  induction inputs using List.reverseRecOn with
  | nil => exact List.Perm.refl _
  | append_singleton front input induction =>
      intro collected
      have distinct := foldl_insert_distinct Entry.identity
        (front.filterMap fun input =>
          (classify isIP now input.2 input.1).toOption)
      rw [← collect_retained isIP now front ⟨[], []⟩] at distinct
      have last : collected = collect isIP now
          (front.foldl (collect isIP now) ⟨[], []⟩) input := by
        simp [collected, List.foldl_append]
      rw [last, List.map_append]
      dsimp only at induction
      generalize front.foldl (collect isIP now) ⟨[], []⟩ = before at *
      have whole := induction.append_right [(input.2 : Int)]
      unfold collect
      cases valid : classify isIP now input.2 input.1 with
      | error diagnostic =>
          simp only [List.map_append, List.map_cons, List.map_nil,
            classify_index valid, ← List.append_assoc]
          exact whole
      | ok entry =>
          have here : entry.index = input.2 :=
            (classify_again valid 0).1
          refine List.Perm.trans ?_ whole
          cases found : before.retained.find? fun old =>
              old.identity = entry.identity with
          | none =>
              have fresh : entry.identity ∉
                  before.retained.map Entry.identity := by
                intro member
                obtain ⟨old, inside, same⟩ := List.mem_map.mp member
                have apart := List.find?_eq_none.mp found old inside
                exact apart (decide_eq_true same)
              simp only [insert_fresh fresh, found, Option.toList_none,
                List.map_nil, List.append_nil, List.map_append, List.map_cons,
                here]
              rw [List.append_assoc, List.append_assoc]
              exact (List.perm_append_comm).append_left _
          | some old =>
              have inside := List.mem_of_find?_eq_some found
              have same : old.identity = entry.identity := by
                simpa using List.find?_some found
              obtain ⟨left, right, parts, result⟩ :=
                insert_split distinct inside same
              simp only [result, found, Option.toList_some, List.map_cons,
                List.map_nil, List.map_append, here]
              rw [parts]
              simp only [List.map_append, List.map_cons]
              apply List.perm_iff_count.mpr
              intro index
              simp only [List.count_append, List.count_cons, List.count_nil]
              omega

theorem crowded_none_iff {entries : List Entry} {domains : Text → Nat}
    (within : ∀ host, domains host ≤ 50) :
    crowded domains entries = none ↔
      ∀ host, domains host + entries.countP (·.host = host) ≤ 50 := by
  induction entries generalizing domains with
  | nil => simpa [crowded] using within
  | cons entry rest induction =>
      have counts : ∀ host,
          Function.update domains entry.host (domains entry.host + 1) host +
              rest.countP (·.host = host) =
            domains host + (entry :: rest).countP (·.host = host) := by
        intro host
        by_cases same : host = entry.host
        · subst same
          simp
          omega
        · have other : ¬entry.host = host := fun equal => same equal.symm
          simp [same, other]
      unfold crowded
      dsimp only
      split
      · next full =>
          constructor
          · intro wrong
            cases wrong
          · intro all
            have here := counts entry.host
            have bound := all entry.host
            rw [Function.update_self] at here
            omega
      · next room =>
          rw [induction]
          · simp only [counts]
          · intro host
            by_cases same : host = entry.host
            · subst same
              rw [Function.update_self]
              omega
            · rw [Function.update_of_ne same]
              exact within host

/-- Given again, a list of distinct valid cookies is retained as it is. -/
theorem collect_again {entries : List Entry}
    (valid : ∀ entry ∈ entries, ∀ index,
      classify isIP now index (some entry.cookie.toRaw) =
        .ok { entry with index := index })
    (distinct : (entries.map Entry.identity).Nodup) :
    let collected := ((entries.map fun entry =>
      some entry.cookie.toRaw).zipIdx).foldl (collect isIP now) ⟨[], []⟩
    collected.discarded = [] ∧
      collected.retained.map (fun entry => (entry.cookie, entry.host)) =
        entries.map fun entry => (entry.cookie, entry.host) := by
  induction entries using List.reverseRecOn with
  | nil => exact ⟨rfl, rfl⟩
  | append_singleton front last induction =>
      rw [List.map_append, List.nodup_append'] at distinct
      obtain ⟨before, -, apart⟩ := distinct
      obtain ⟨discarded, retained⟩ := induction
        (fun entry member => valid entry (List.mem_append_left _ member))
        before
      dsimp only at discarded retained ⊢
      rw [List.map_append, List.zipIdx_append, List.foldl_append]
      generalize ((front.map fun entry =>
        some entry.cookie.toRaw).zipIdx).foldl (collect isIP now)
          ⟨[], []⟩ = state at discarded retained ⊢
      have ids : state.retained.map Entry.identity =
          front.map Entry.identity := by
        have pairs := congrArg (List.map fun pair : DownloadCookie × Text =>
          (pair.2, pair.1.usedPath, pair.1.name)) retained
        rw [List.map_map, List.map_map] at pairs
        exact pairs
      have here := valid last (by simp) (0 + (front.map fun entry =>
        some entry.cookie.toRaw).length)
      have fresh : Entry.identity
          { last with
            index := 0 + (front.map fun entry =>
              some entry.cookie.toRaw).length } ∉
          state.retained.map Entry.identity := by
        rw [ids]
        exact List.disjoint_singleton.mp apart
      have missing : state.retained.find? (fun old => old.identity =
          Entry.identity
            { last with
              index := 0 + (front.map fun entry =>
                some entry.cookie.toRaw).length }) = none := by
        rw [List.find?_eq_none]
        intro old inside same
        exact fresh (List.mem_map.mpr ⟨old, inside, of_decide_eq_true same⟩)
      simp only [List.map_cons, List.map_nil, List.zipIdx_cons,
        List.zipIdx_nil, List.foldl_cons, List.foldl_nil, collect, here,
        missing, insert_fresh fresh]
      constructor
      · simp [discarded]
      · rw [List.map_append, List.map_append, retained]
        rfl

/-- What a list of cookies is prepared as, and that preparing it again changes
nothing. -/
theorem prepareAria2TaskCookies_retains {cookies : List (Option RawCookie)}
    {prepared : PreparedDownloadCookies}
    (succeeds : prepareAria2TaskCookies isIP (some cookies) now =
      .ok prepared) :
    (∃ retained : List Entry,
      prepared.cookies = retained.map (·.cookie) ∧
        (retained.map (fun entry => (entry.index : Int)) ++
          prepared.discarded.map (·.index)).Perm
            ((List.range cookies.length).map Int.ofNat) ∧
        (retained.map Entry.identity).Nodup ∧
        retained.map Entry.identity =
          ((validEntries isIP now cookies).map Entry.identity).eraseDups ∧
        (∀ entry ∈ retained,
          Latest Entry.identity (validEntries isIP now cookies) entry) ∧
        retained.length ≤ 300 ∧
        ∀ host, retained.countP (·.host = host) ≤ 50) ∧
      prepareAria2TaskCookies isIP
          (some (prepared.cookies.map fun cookie => some cookie.toRaw)) now =
        .ok ⟨prepared.cookies, []⟩ := by
  have partition := collect_partition isIP now cookies.zipIdx
  have folded := collect_retained isIP now cookies.zipIdx ⟨[], []⟩
  obtain ⟨order, latest⟩ := foldl_insert Entry.identity
    (validEntries isIP now cookies)
  have distinct := foldl_insert_distinct Entry.identity
    (validEntries isIP now cookies)
  have indexes : cookies.zipIdx.map (fun input => (input.2 : Int)) =
      (List.range cookies.length).map Int.ofNat := by
    have seconds : cookies.zipIdx.map Prod.snd = List.range cookies.length := by
      rw [List.zipIdx_map_snd, List.range_eq_range']
    rw [← seconds, List.map_map]
    rfl
  simp only [prepareAria2TaskCookies] at succeeds
  dsimp only at partition
  rw [indexes] at partition
  change _ = (validEntries isIP now cookies).foldl _ [] at folded
  rw [← folded] at order latest distinct
  generalize cookies.zipIdx.foldl (collect isIP now) ⟨[], []⟩ = collected at *
  split at succeeds
  · cases succeeds
  · split at succeeds
    · cases succeeds
    · next few =>
        cases full : crowded (fun _ => 0) collected.retained with
        | some entry => simp [full] at succeeds
        | none =>
            simp only [full] at succeeds
            cases succeeds
            have small := Nat.not_lt.mp few
            have zero : ∀ host : Text, (fun _ => 0) host ≤ 50 :=
              fun _ => Nat.zero_le _
            have counts := (crowded_none_iff zero).mp full
            refine ⟨⟨collected.retained, rfl, partition, distinct, order,
              latest, small, ?_⟩, ?_⟩
            · intro host
              simpa using counts host
            · have valid : ∀ entry ∈ collected.retained, ∀ index,
                  classify isIP now index (some entry.cookie.toRaw) =
                    .ok { entry with index := index } := by
                intro entry member index
                obtain ⟨input, -, gives⟩ :=
                  List.mem_filterMap.mp (latest entry member).mem
                cases result : classify isIP now input.2 input.1 with
                | error diagnostic => simp [result, Except.toOption] at gives
                | ok found =>
                    simp only [result, Except.toOption,
                      Option.some.injEq] at gives
                    subst gives
                    exact (classify_again result index).2
              obtain ⟨nothing, same⟩ := collect_again valid distinct
              have input : (collected.retained.map (·.cookie)).map
                  (fun cookie => some cookie.toRaw) =
                    collected.retained.map fun entry =>
                      some entry.cookie.toRaw := by
                rw [List.map_map]
                rfl
              rw [input]
              simp only [prepareAria2TaskCookies]
              generalize ((collected.retained.map fun entry =>
                some entry.cookie.toRaw).zipIdx).foldl (collect isIP now)
                  ⟨[], []⟩ = state at nothing same ⊢
              have cookiesSame := congrArg (List.map Prod.fst) same
              have hostsSame := congrArg (List.map Prod.snd) same
              rw [List.map_map, List.map_map] at cookiesSame hostsSame
              have length := congrArg List.length same
              rw [List.length_map, List.length_map] at length
              have room : crowded (fun _ => 0) state.retained = none := by
                rw [crowded_none_iff zero]
                intro host
                have bound := counts host
                have hosts := congrArg
                  (List.countP fun found => decide (found = host)) hostsSame
                rw [List.countP_map, List.countP_map] at hosts
                have equal : state.retained.countP (·.host = host) =
                    collected.retained.countP (·.host = host) := hosts
                rw [equal]
                exact bound
              have cookies : state.retained.map (·.cookie) =
                  collected.retained.map (·.cookie) := cookiesSame
              rw [nothing, if_neg (by simp), if_neg (by omega), room]
              simp [cookies]

end All

/-- A cookie of the root of a host, named `a`. -/
def plainCookie (value : String) : DownloadCookie where
  name := text "a"
  value := text value
  domain := text ".Example.org"
  path := none
  hostOnly := none
  secure := some true
  httpOnly := none
  expiresAt := none

/-- The earlier of two cookies of one name is reported, and so is a missing
one. -/
theorem prepareAria2TaskCookies_replaced :
    let cookies := [some (plainCookie "1").toRaw, none,
      some (plainCookie "2").toRaw]
    prepareAria2TaskCookies (fun _ => false) (some cookies) 0 =
        .ok ⟨[plainCookie "2"],
          [⟨1, "cookie", .type, none⟩, ⟨0, "cookie", .duplicate, none⟩]⟩ ∧
      prepareAria2TaskCookies (fun _ => false)
          (some ([plainCookie "2"].map fun cookie => some cookie.toRaw)) 0 =
        .ok ⟨[plainCookie "2"], []⟩ := by
  intro cookies
  have succeeds : prepareAria2TaskCookies (fun _ => false) (some cookies) 0 =
      .ok ⟨[plainCookie "2"],
        [⟨1, "cookie", .type, none⟩, ⟨0, "cookie", .duplicate, none⟩]⟩ := by
    decide +kernel
  exact ⟨succeeds, (prepareAria2TaskCookies_retains succeeds).2⟩

end Motrix.TaskCookies
