import Mathlib.Data.List.DropRight
import Mathlib.Data.List.Sort
import Mathlib.Order.Defs.LinearOrder
import Motrix.Lib.Table
import Motrix.Lib.Utf16
import Motrix.Lib.LastWrite

/-!
# The cookie jar of a plugin

`Set-Cookie` headers are parsed against the URL of the response and stored
under plugin, domain, path and name.  A text is a string of UTF-16 code units.
URLs, lower case, numerals and dates are read by the host; times are of any
ordered type.
-/

namespace Motrix.PluginCookies

open Motrix.Lib

abbrev Text := List UInt16

def units (literal : String) : Text :=
  Utf16.encode literal.toList

def dot : UInt16 := 0x2e

def slash : UInt16 := 0x2f

structure Url where
  protocol : Text
  hostname : Text
  pathname : Text

structure CookieHost (Time : Type) where
  parseUrl : Text → Option Url
  lower : Text → Text
  /-- `Number`, `none` for NaN -/
  number : Text → Option Time
  /-- `now + seconds * 1000` -/
  after : Time → Time → Time
  /-- `Date.parse`, `none` for NaN -/
  parseDate : Text → Option Time

/-! ## Parsing -/

def isWhiteSpace (unit : UInt16) : Bool :=
  (0x09 ≤ unit && unit ≤ 0x0d) || (0x2000 ≤ unit && unit ≤ 0x200a) ||
    [0x20, 0xa0, 0x1680, 0x2028, 0x2029, 0x202f, 0x205f, 0x3000,
      0xfeff].contains unit

def trim (text : Text) : Text :=
  (text.dropWhile isWhiteSpace).rdropWhile isWhiteSpace

def startsWith (text start : Text) : Bool :=
  start.isPrefixOf text

def endsWith (text ending : Text) : Bool :=
  ending.isSuffixOf text

/-- What stands before and after the first equals sign, if there is one. -/
def splitEquals (part : Text) : Option (Text × Text) :=
  if 0x3d ∈ part then
    some (part.takeWhile (· != 0x3d), (part.dropWhile (· != 0x3d)).drop 1)
  else none

structure ParsedCookie (Time : Type) where
  name : Text
  value : Text
  domain : Text
  path : Text
  expiresAt : Option Time
  secure : Bool
  httpOnly : Bool

/-- The attributes that have been read so far. -/
structure Draft (Time : Type) where
  domain : Text
  path : Text
  expiresAt : Option Time
  secure : Bool
  httpOnly : Bool
  maxAgeSet : Bool

variable {Time : Type} [LinearOrder Time] [Zero Time]

def normalizedDomain (rawDomain : Text) : Text :=
  if startsWith rawDomain [dot] then rawDomain else dot :: rawDomain

/-- The host is the domain or ends in it after a dot. -/
def suffixMatches (host domain : Text) : Bool :=
  host == domain || endsWith host (dot :: domain)

/-- The name and the value of an attribute. -/
def attributeOf (host : CookieHost Time) (part : Text) : Text × Text :=
  match splitEquals part with
  | none => (host.lower (trim part), [])
  | some (name, value) => (host.lower (trim name), trim value)

def applyAttribute (host : CookieHost Time) (requestHost : Text) (now : Time)
    (draft : Draft Time) (part : Text) : Option (Draft Time) :=
  let attr := attributeOf host part
  if part = [] then some draft
  else if attr.1 = units "domain" then
    if attr.2 = [] then some draft
    else
      let domain := normalizedDomain (host.lower attr.2)
      if suffixMatches requestHost (domain.drop 1) then
        some { draft with domain := domain }
      else none
  else if attr.1 = units "path" then
    some { draft with
      path := if attr.2 = [] then [slash] else attr.2 }
  else if attr.1 = units "max-age" then
    match host.number attr.2 with
    | none => some draft
    | some seconds =>
        some { draft with
          maxAgeSet := true
          expiresAt :=
            if seconds ≤ 0 then some 0 else some (host.after now seconds) }
  else if attr.1 = units "expires" ∧ draft.maxAgeSet = false then
    match host.parseDate attr.2 with
    | none => some draft
    | some parsed => some { draft with expiresAt := some parsed }
  else if attr.1 = units "secure" then
    some { draft with secure := true }
  else if attr.1 = units "httponly" then
    some { draft with httpOnly := true }
  else some draft

def partsOf (headerValue : Text) : List Text :=
  (headerValue.splitOn 0x3b).map trim

def startDraft (requestHost : Text) : Draft Time where
  domain := requestHost
  path := [slash]
  expiresAt := none
  secure := false
  httpOnly := false
  maxAgeSet := false

def hostOf (host : CookieHost Time) (url : Text) : Option Text :=
  (host.parseUrl url).map fun parsed => host.lower parsed.hostname

def parseSetCookie (host : CookieHost Time) (headerValue requestUrl : Text)
    (now : Time) : Option (ParsedCookie Time) := do
  let parts := partsOf headerValue
  let pair ← splitEquals (parts.headD [])
  let name := trim pair.1
  if name = [] then none
  else
    let requestHost ← hostOf host requestUrl
    let draft ← (parts.drop 1).foldlM (applyAttribute host requestHost now)
      (startDraft requestHost)
    return {
      name := name
      value := trim pair.2
      domain := draft.domain
      path := draft.path
      expiresAt := draft.expiresAt
      secure := draft.secure
      httpOnly := draft.httpOnly }

/-! ## Rows -/

structure CookieRow (Time : Type) where
  pluginId : Text
  domain : Text
  path : Text
  name : Text
  value : Text
  expiresAt : Option Time
  secure : Bool
  httpOnly : Bool

structure CookieKey where
  pluginId : Text
  domain : Text
  path : Text
  name : Text
  deriving DecidableEq

def CookieRow.key (row : CookieRow Time) : CookieKey where
  pluginId := row.pluginId
  domain := row.domain
  path := row.path
  name := row.name

/-- What a conflicting insertion sets of the row that is there. -/
def CookieRow.updated (excluded row : CookieRow Time) : CookieRow Time :=
  { row with
    value := excluded.value
    expiresAt := excluded.expiresAt
    secure := excluded.secure
    httpOnly := excluded.httpOnly }

abbrev CookieTable (Time : Type) := List (CookieRow Time)

def upsert (rows : CookieTable Time) (row : CookieRow Time) :
    CookieTable Time :=
  if rows.any (·.key == row.key) then
    Table.rewrite (·.key == row.key) row.updated rows
  else rows ++ [row]

def rowOf (pluginId : Text) (cookie : ParsedCookie Time) :
    CookieRow Time where
  pluginId := pluginId
  domain := cookie.domain
  path := cookie.path
  name := cookie.name
  value := cookie.value
  expiresAt := cookie.expiresAt
  secure := cookie.secure
  httpOnly := cookie.httpOnly

/-- An expiry of 0 deletes the cookie. -/
def store (rows : CookieTable Time) (pluginId : Text)
    (cookie : ParsedCookie Time) : CookieTable Time :=
  if cookie.expiresAt = some 0 then
    Table.remove CookieRow.key (rowOf pluginId cookie).key rows
  else upsert rows (rowOf pluginId cookie)

/-- A response: its headers with the clock at each of them. -/
structure Capture (Time : Type) where
  pluginId : Text
  url : Text
  setCookieHeaders : List (Text × Time)

def captureFromResponseHeaders (host : CookieHost Time)
    (rows : CookieTable Time) (capture : Capture Time) : CookieTable Time :=
  capture.setCookieHeaders.foldl (fun rows header =>
    match parseSetCookie host header.1 capture.url header.2 with
    | none => rows
    | some cookie => store rows capture.pluginId cookie) rows

def run (host : CookieHost Time) (captures : List (Capture Time)) :
    CookieTable Time :=
  captures.foldl (captureFromResponseHeaders host) []

/-! ## Sending -/

def pathMatches (targetPath cookiePath : Text) : Bool :=
  targetPath == cookiePath ||
    if endsWith cookiePath [slash] then startsWith targetPath cookiePath
    else startsWith targetPath (cookiePath ++ [slash])

def domainMatches (targetHost cookieDomain : Text) : Bool :=
  if startsWith cookieDomain [dot] then
    suffixMatches targetHost (cookieDomain.drop 1)
  else targetHost == cookieDomain

/-- What is asked of a row apart from its domain. -/
def isOffered (pluginId : Text) (url : Url) (now : Time)
    (row : CookieRow Time) : Bool :=
  row.pluginId == pluginId &&
    (row.expiresAt.all fun expiresAt => decide (now < expiresAt)) &&
    (!row.secure || url.protocol == units "https:") &&
    pathMatches (if url.pathname = [] then [slash] else url.pathname) row.path

def isSent (host : CookieHost Time) (pluginId : Text) (url : Url) (now : Time)
    (row : CookieRow Time) : Bool :=
  isOffered pluginId url now row &&
    domainMatches (host.lower url.hostname) (host.lower row.domain)

/-- Longer paths come first, then names in order. -/
def precedes (first second : CookieRow Time) : Bool :=
  decide (second.path.length < first.path.length) ||
    (first.path.length == second.path.length &&
      !decide (second.name.map UInt16.toNat < first.name.map UInt16.toNat))

def sentRows (host : CookieHost Time) (rows : CookieTable Time)
    (pluginId : Text) (url : Url) (now : Time) : List (CookieRow Time) :=
  (rows.filter (isSent host pluginId url now)).mergeSort precedes

def cookieHeader (host : CookieHost Time) (rows : CookieTable Time)
    (pluginId url : Text) (now : Time) : Text :=
  match host.parseUrl url with
  | none => []
  | some url =>
      (units "; ").intercalate
        ((sentRows host rows pluginId url now).map fun row =>
          row.name ++ units "=" ++ row.value)

end Motrix.PluginCookies

/-!
# Which cookies are sent to which hosts

The jar holds the latest cookie of every key.  It compares domains as
suffixes, once when it stores a cookie and once when it sends it; for host
names that is domain matching, for other hosts it is not.
-/

namespace Motrix.PluginCookies

open Motrix.Lib

variable {Time : Type} [LinearOrder Time] [Zero Time]
  {host : CookieHost Time}

/-- Lower case has no upper case of its own, in front of it or not. -/
structure Lowers (host : CookieHost Time) : Prop where
  settled : ∀ text, host.lower (host.lower text) = host.lower text
  dotted : ∀ text,
    host.lower (dot :: host.lower text) = dot :: host.lower text

/-! ## Hosts -/

def labels (name : Text) : List Text :=
  (if endsWith name [dot] then name.dropLast else name).splitOn dot

def isDigit (unit : UInt16) : Bool :=
  0x30 ≤ unit && unit ≤ 0x39

def decimal (label : Text) : Nat :=
  label.foldl (fun value unit => 10 * value + (unit.toNat - 0x30)) 0

/-- Four decimal numbers, or an address in brackets. -/
def isIpAddress (name : Text) : Bool :=
  startsWith name (units "[") ||
    ((labels name).length == 4 && (labels name).all fun label =>
      label != [] && label.all isDigit && decide (decimal label ≤ 255))

/-- No label is empty.  A dot at the end stands for the root. -/
def isDnsName (name : Text) : Bool :=
  !isIpAddress name && (labels name).all (· != [])

/-- The host is the domain or a DNS name below it. -/
def Within (name domain : Text) : Prop :=
  name = domain ∨
    (isDnsName name = true ∧ domain ≠ [] ∧
      endsWith name (dot :: domain) = true)

/-- The host that set a cookie matches the target, given the domain that the
cookie declares. -/
def DomainMatches (setter target : Text) : Option Text → Prop
  | none => setter = target
  | some domain =>
      (Within setter domain ∧ Within target domain) ∧
        (isIpAddress setter = true ∨ isIpAddress target = true →
          setter = target)

/-- The host is not the domain, and it is no DNS name or the domain is
empty. -/
def Astray (name domain : Text) : Prop :=
  name ≠ domain ∧ ¬(isDnsName name = true ∧ domain ≠ [])

/-- Hosts of unusual shape: a host of an undeclared cookie that begins with a
dot, or hosts that end in a declared domain without being names below it. -/
def Confused (setter target : Text) : Option Text → Prop
  | none =>
      setter ≠ target ∧ startsWith setter [dot] = true ∧
        suffixMatches target (setter.drop 1) = true
  | some domain =>
      suffixMatches target domain = true ∧
        (Astray setter domain ∨ Astray target domain ∨
          ((isIpAddress setter = true ∨ isIpAddress target = true) ∧
            setter ≠ target))

theorem suffixMatches_iff {name domain : Text} :
    suffixMatches name domain = true ↔
      name = domain ∨ endsWith name (dot :: domain) = true := by
  unfold suffixMatches
  rw [Bool.or_eq_true, beq_iff_eq]

theorem startsWith_dot {text : Text} :
    startsWith text [dot] = true ↔ ∃ rest, text = dot :: rest := by
  unfold startsWith
  rw [List.isPrefixOf_iff_prefix]
  constructor
  · rintro ⟨rest, rfl⟩
    exact ⟨rest, rfl⟩
  · rintro ⟨rest, rfl⟩
    exact ⟨rest, rfl⟩

theorem Within.suffix {name domain : Text} (within : Within name domain) :
    suffixMatches name domain = true := by
  rcases within with same | ⟨_, _, ends⟩
  · exact suffixMatches_iff.mpr (Or.inl same)
  · exact suffixMatches_iff.mpr (Or.inr ends)

theorem within_iff {name domain : Text}
    (suffix : suffixMatches name domain = true) :
    Within name domain ↔ ¬Astray name domain := by
  unfold Within Astray
  rcases suffixMatches_iff.mp suffix with same | ends
  · simp [same]
  · simp only [ends, and_true, ne_eq, not_and, not_not]
    by_cases same : name = domain
    · simp [same]
    · simp [same]

/-! ## The declared domain -/

/-- The domain that a part of the header declares. -/
def declares (host : CookieHost Time) (part : Text) : Option Text :=
  let attr := attributeOf host part
  if part ≠ [] ∧ attr.1 = units "domain" ∧ attr.2 ≠ [] then
    some ((normalizedDomain (host.lower attr.2)).drop 1)
  else none

def declaredDomain (host : CookieHost Time) (headerValue : Text) :
    Option Text :=
  lastWrite (declares host) ((partsOf headerValue).drop 1)

theorem normalizedDomain_eq (rawDomain : Text) :
    normalizedDomain rawDomain =
      dot :: (normalizedDomain rawDomain).drop 1 := by
  unfold normalizedDomain
  split
  · rename_i starts
    obtain ⟨rest, rfl⟩ := startsWith_dot.mp starts
    rfl
  · rfl

/-- One attribute sets the domain that it declares, if the host matches it. -/
theorem applyAttribute_domain {requestHost : Text} {now : Time}
    {draft next : Draft Time} {part : Text}
    (applied : applyAttribute host requestHost now draft part = some next) :
    next.domain = ((declares host part).map (dot :: ·)).getD draft.domain ∧
      ∀ domain, declares host part = some domain →
        suffixMatches requestHost domain = true := by
  unfold applyAttribute at applied
  unfold declares
  by_cases empty : part = []
  · simp only [empty, if_true, Option.some.injEq] at applied
    simp [empty, ← applied]
  · by_cases isDomain : (attributeOf host part).1 = units "domain"
    · by_cases blank : (attributeOf host part).2 = []
      · simp only [empty, isDomain, blank, if_true, if_false,
          Option.some.injEq] at applied
        simp [blank, ← applied]
      · simp only [empty, isDomain, blank, if_true, if_false] at applied
        by_cases suffix : suffixMatches requestHost
            ((normalizedDomain (host.lower (attributeOf host part).2)).drop 1)
        · simp only [suffix, if_true, Option.some.injEq] at applied
          simp only [empty, isDomain, blank, ne_eq, not_false_eq_true,
            and_self, if_true, Option.map_some, Option.getD_some,
            Option.some.injEq, ← applied]
          constructor
          · exact normalizedDomain_eq _
          · rintro domain rfl
            exact suffix
        · rw [if_neg suffix] at applied
          cases applied
    · have undeclared : ¬(part ≠ [] ∧
          (attributeOf host part).1 = units "domain" ∧
          (attributeOf host part).2 ≠ []) := fun declared =>
        isDomain declared.2.1
      rw [if_neg undeclared]
      constructor
      · simp only [empty, isDomain, if_false] at applied
        repeat' split at applied
        all_goals
          cases applied
          rfl
      · intro domain declared
        cases declared

theorem applyAttributes_domain {requestHost : Text} {now : Time}
    {parts : List Text} {draft final : Draft Time}
    (applied : parts.foldlM (applyAttribute host requestHost now) draft =
      some final) :
    final.domain =
        ((lastWrite (declares host) parts).map (dot :: ·)).getD draft.domain ∧
      ∀ domain, lastWrite (declares host) parts = some domain →
        suffixMatches requestHost domain = true := by
  induction parts generalizing draft with
  | nil =>
      cases applied
      exact ⟨rfl, fun _ declared => by cases declared⟩
  | cons part rest induction =>
      rw [List.foldlM_cons] at applied
      obtain ⟨next, first, later⟩ := Option.bind_eq_some_iff.mp applied
      obtain ⟨sets, matched⟩ := applyAttribute_domain first
      obtain ⟨sets', matched'⟩ := induction later
      rw [lastWrite_cons]
      cases last : lastWrite (declares host) rest with
      | none =>
          rw [last] at sets'
          exact ⟨sets'.trans sets, matched⟩
      | some domain =>
          rw [last] at sets' matched'
          exact ⟨sets', matched'⟩

/-! ## The latest cookies -/

/-- A cookie with the host that set it and the domain that it declared. -/
structure Setting (Time : Type) where
  pluginId : Text
  setter : Text
  declared : Option Text
  cookie : ParsedCookie Time

def Setting.row (setting : Setting Time) : CookieRow Time :=
  rowOf setting.pluginId setting.cookie

def Setting.key (setting : Setting Time) : CookieKey :=
  setting.row.key

def settingOf (host : CookieHost Time) (capture : Capture Time)
    (header : Text × Time) : Option (Setting Time) := do
  let setter ← hostOf host capture.url
  let cookie ← parseSetCookie host header.1 capture.url header.2
  return {
    pluginId := capture.pluginId
    setter := setter
    declared := declaredDomain host header.1
    cookie := cookie }

def settings (host : CookieHost Time) (captures : List (Capture Time)) :
    List (Setting Time) :=
  captures.flatMap fun capture =>
    capture.setCookieHeaders.filterMap (settingOf host capture)

/-- The cookie has been stored, and nothing has been stored or deleted under
its key since. -/
def Stored (host : CookieHost Time) (captures : List (Capture Time))
    (setting : Setting Time) : Prop :=
  Latest Setting.key (settings host captures) setting ∧
    setting.cookie.expiresAt ≠ some 0

theorem parseSetCookie_host {headerValue requestUrl : Text} {now : Time}
    {cookie : ParsedCookie Time}
    (parsed : parseSetCookie host headerValue requestUrl now = some cookie) :
    ∃ requestHost, hostOf host requestUrl = some requestHost ∧
      cookie.domain = ((declaredDomain host headerValue).map
        (dot :: ·)).getD requestHost ∧
      ∀ domain, declaredDomain host headerValue = some domain →
        suffixMatches requestHost domain = true := by
  unfold parseSetCookie at parsed
  obtain ⟨pair, _, rest⟩ := Option.bind_eq_some_iff.mp parsed
  by_cases nameless : trim pair.1 = []
  · simp only [nameless, if_true] at rest
    cases rest
  · simp only [nameless, if_false] at rest
    obtain ⟨requestHost, found, rest⟩ := Option.bind_eq_some_iff.mp rest
    obtain ⟨draft, applied, rest⟩ := Option.bind_eq_some_iff.mp rest
    cases rest
    exact ⟨requestHost, found, applyAttributes_domain applied⟩

def record (rows : CookieTable Time) (setting : Setting Time) :
    CookieTable Time :=
  store rows setting.pluginId setting.cookie

/-- A header that yields no cookie changes nothing. -/
theorem capture_eq (rows : CookieTable Time) (capture : Capture Time) :
    captureFromResponseHeaders host rows capture =
      (capture.setCookieHeaders.filterMap (settingOf host capture)).foldl
        record rows := by
  unfold captureFromResponseHeaders
  induction capture.setCookieHeaders generalizing rows with
  | nil => rfl
  | cons header rest induction =>
      rw [List.foldl_cons, List.filterMap_cons, induction]
      cases parsed : parseSetCookie host header.1 capture.url header.2 with
      | none =>
          have unset : settingOf host capture header = none := by
            unfold settingOf
            rw [parsed]
            cases hostOf host capture.url with
            | none => rfl
            | some setter => rfl
          rw [unset]
      | some cookie =>
          obtain ⟨setter, found, _⟩ := parseSetCookie_host parsed
          have set : settingOf host capture header =
              some ⟨capture.pluginId, setter, declaredDomain host header.1,
                cookie⟩ := by
            unfold settingOf
            rw [parsed, found]
            rfl
          rw [set]
          rfl

theorem run_eq (captures : List (Capture Time)) :
    run host captures = (settings host captures).foldl record [] := by
  unfold run settings
  generalize ([] : CookieTable Time) = rows
  induction captures generalizing rows with
  | nil => rfl
  | cons capture rest induction =>
      rw [List.foldl_cons, List.flatMap_cons, List.foldl_append, capture_eq,
        induction]

omit [LinearOrder Time] [Zero Time] in
theorem updated_eq {excluded row : CookieRow Time}
    (same : row.key = excluded.key) : excluded.updated row = excluded := by
  cases excluded
  cases row
  simp_all [CookieRow.key, CookieRow.updated]

omit [LinearOrder Time] [Zero Time] in
/-- What is stored under a key replaces what was there. -/
theorem mem_upsert {rows : CookieTable Time} {row found : CookieRow Time} :
    found ∈ upsert rows row ↔
      found = row ∨ (found ∈ rows ∧ found.key ≠ row.key) := by
  unfold upsert
  by_cases present : rows.any (·.key == row.key) = true
  · rw [if_pos present]
    constructor
    · intro inside
      rcases Table.of_mem_rewrite inside with
        ⟨old, _, chosen, rfl⟩ | ⟨there, apart⟩
      · exact Or.inl (updated_eq (beq_iff_eq.mp chosen))
      · exact Or.inr ⟨there, ne_of_beq_false apart⟩
    · rintro (rfl | ⟨there, apart⟩)
      · obtain ⟨old, inside, chosen⟩ := List.any_eq_true.mp present
        refine Table.mem_rewrite.mpr ⟨old, inside, ?_⟩
        rw [if_pos chosen, updated_eq (beq_iff_eq.mp chosen)]
      · refine Table.mem_rewrite.mpr ⟨found, there, if_neg ?_⟩
        exact fun chosen => apart (beq_iff_eq.mp chosen)
  · have fresh : ∀ old ∈ rows, old.key ≠ row.key := by
      intro old inside same
      exact present (List.any_eq_true.mpr ⟨old, inside, beq_iff_eq.mpr same⟩)
    rw [if_neg present, List.mem_append, List.mem_singleton]
    constructor
    · rintro (there | rfl)
      · exact Or.inr ⟨there, fresh found there⟩
      · exact Or.inl rfl
    · rintro (rfl | ⟨there, _⟩)
      · exact Or.inr rfl
      · exact Or.inl there

omit [LinearOrder Time] [Zero Time] in
theorem upsert_distinct {rows : CookieTable Time}
    (distinct : Table.Distinct CookieRow.key rows) (row : CookieRow Time) :
    Table.Distinct CookieRow.key (upsert rows row) := by
  unfold upsert
  split
  · exact distinct.rewrite fun _ => rfl
  · rename_i absent
    apply distinct.concat
    intro old inside same
    exact absent (List.any_eq_true.mpr ⟨old, inside, beq_iff_eq.mpr same⟩)

theorem record_distinct {rows : CookieTable Time}
    (distinct : Table.Distinct CookieRow.key rows) (setting : Setting Time) :
    Table.Distinct CookieRow.key (record rows setting) := by
  unfold record store
  split
  · exact distinct.remove _
  · exact upsert_distinct distinct _

theorem mem_record {rows : CookieTable Time} {setting : Setting Time}
    {row : CookieRow Time} :
    row ∈ record rows setting ↔
      (setting.cookie.expiresAt ≠ some 0 ∧ row = setting.row) ∨
        (row ∈ rows ∧ row.key ≠ setting.key) := by
  unfold record store
  by_cases deletes : setting.cookie.expiresAt = some 0
  · rw [if_pos deletes, Table.mem_remove]
    simp only [deletes, ne_eq, not_true, false_and, false_or]
    exact Iff.rfl
  · rw [if_neg deletes, mem_upsert]
    simp only [ne_eq, deletes, not_false_eq_true, true_and]
    exact Iff.rfl

/-- The jar holds the latest cookie of each key and nothing else. -/
theorem mem_recorded {history : List (Setting Time)} {row : CookieRow Time} :
    row ∈ history.foldl record [] ↔
      ∃ setting, Latest Setting.key history setting ∧
        setting.cookie.expiresAt ≠ some 0 ∧ setting.row = row := by
  induction history using List.reverseRecOn with
  | nil =>
      constructor
      · intro inside
        cases inside
      · rintro ⟨_, latest, _⟩
        exact absurd latest not_latest_nil
  | append_singleton history last induction =>
      rw [List.foldl_append, List.foldl_cons, List.foldl_nil, mem_record,
        induction]
      constructor
      · rintro (⟨kept, rfl⟩ | ⟨⟨setting, latest, kept, rfl⟩, apart⟩)
        · exact ⟨last, latest_concat.mpr (Or.inl rfl), kept, rfl⟩
        · refine ⟨setting, latest_concat.mpr (Or.inr ⟨latest, ?_⟩), kept, rfl⟩
          exact fun same => apart same.symm
      · rintro ⟨setting, latest, kept, rfl⟩
        rcases latest_concat.mp latest with rfl | ⟨earlier, apart⟩
        · exact Or.inl ⟨kept, rfl⟩
        · refine Or.inr ⟨⟨setting, earlier, kept, rfl⟩, ?_⟩
          exact fun same => apart same.symm

theorem mem_run {captures : List (Capture Time)} {row : CookieRow Time} :
    row ∈ run host captures ↔
      ∃ setting, Stored host captures setting ∧ setting.row = row := by
  rw [run_eq, mem_recorded]
  constructor
  · rintro ⟨setting, latest, kept, same⟩
    exact ⟨setting, ⟨latest, kept⟩, same⟩
  · rintro ⟨setting, ⟨latest, kept⟩, same⟩
    exact ⟨setting, latest, kept, same⟩

theorem run_distinct (captures : List (Capture Time)) :
    Table.Distinct CookieRow.key (run host captures) := by
  rw [run_eq]
  generalize settings host captures = history
  induction history using List.reverseRecOn with
  | nil => exact List.nodup_nil
  | append_singleton history last induction =>
      rw [List.foldl_append]
      exact record_distinct induction last

/-! ## Sending -/

theorem Stored.declared {captures : List (Capture Time)}
    {setting : Setting Time} (stored : Stored host captures setting) :
    (∃ name, setting.setter = host.lower name) ∧
      setting.cookie.domain =
        (setting.declared.map (dot :: ·)).getD setting.setter ∧
      ∀ domain, setting.declared = some domain →
        suffixMatches setting.setter domain = true := by
  obtain ⟨capture, _, inside⟩ := List.mem_flatMap.mp stored.1.mem
  obtain ⟨header, _, set⟩ := List.mem_filterMap.mp inside
  obtain ⟨setter, found, rest⟩ := Option.bind_eq_some_iff.mp set
  obtain ⟨cookie, parsed, rest⟩ := Option.bind_eq_some_iff.mp rest
  obtain ⟨requestHost, found', domain, matched⟩ := parseSetCookie_host parsed
  obtain rfl := Option.some.inj (found.symm.trans found')
  cases rest
  refine ⟨?_, domain, matched⟩
  obtain ⟨url, _, lowered⟩ := Option.map_eq_some_iff.mp found
  exact ⟨url.hostname, lowered.symm⟩

omit [LinearOrder Time] [Zero Time] in
/-- A declared domain is kept as the lower case of a text. -/
theorem declares_lower (lowers : Lowers host) {part domain : Text}
    (declared : declares host part = some domain) :
    host.lower (dot :: domain) = dot :: domain := by
  unfold declares at declared
  dsimp only at declared
  split at declared
  · cases declared
    rw [← normalizedDomain_eq]
    unfold normalizedDomain
    split
    · exact lowers.settled _
    · exact lowers.dotted _
  · cases declared

theorem lastWrite_mem {Entry Value : Type} {write : Entry → Option Value}
    {entries : List Entry} {value : Value}
    (written : lastWrite write entries = some value) :
    ∃ entry ∈ entries, write entry = some value := by
  obtain ⟨entry, inside, here⟩ := List.exists_of_findSome?_eq_some written
  exact ⟨entry, List.mem_reverse.mp inside, here⟩

theorem Stored.lower (lowers : Lowers host) {captures : List (Capture Time)}
    {setting : Setting Time} (stored : Stored host captures setting) :
    host.lower setting.cookie.domain = setting.cookie.domain := by
  obtain ⟨⟨name, lowered⟩, domain, _⟩ := stored.declared
  obtain ⟨capture, _, inside⟩ := List.mem_flatMap.mp stored.1.mem
  obtain ⟨header, _, set⟩ := List.mem_filterMap.mp inside
  obtain ⟨setter, _, rest⟩ := Option.bind_eq_some_iff.mp set
  obtain ⟨cookie, _, rest⟩ := Option.bind_eq_some_iff.mp rest
  have named : setting.declared = declaredDomain host header.1 := by
    cases rest
    rfl
  rw [domain]
  cases declared : setting.declared with
  | none =>
      rw [Option.map_none, Option.getD_none, lowered]
      exact lowers.settled name
  | some declaredName =>
      obtain ⟨part, _, here⟩ := lastWrite_mem (named.symm.trans declared)
      exact declares_lower lowers here

/-- The comparison of suffixes is domain matching unless the hosts are of
unusual shape. -/
theorem Stored.domainMatches (lowers : Lowers host)
    {captures : List (Capture Time)} {setting : Setting Time}
    (stored : Stored host captures setting) (target : Text) :
    domainMatches target (host.lower setting.row.domain) = true ↔
      DomainMatches setting.setter target setting.declared ∨
        Confused setting.setter target setting.declared := by
  obtain ⟨_, domain, matched⟩ := stored.declared
  have lowered : host.lower setting.row.domain = setting.cookie.domain :=
    stored.lower lowers
  rw [lowered, domain]
  unfold PluginCookies.domainMatches
  cases declared : setting.declared with
  | none =>
      rw [Option.map_none, Option.getD_none]
      by_cases dotted : startsWith setting.setter [dot] = true
      · obtain ⟨rest, shape⟩ := startsWith_dot.mp dotted
        rw [if_pos dotted]
        show _ ↔ setting.setter = target ∨ (setting.setter ≠ target ∧ _ ∧ _)
        by_cases same : setting.setter = target
        · have ends : suffixMatches target (setting.setter.drop 1) = true := by
            apply suffixMatches_iff.mpr
            right
            rw [← same, shape]
            exact List.isSuffixOf_iff_suffix.mpr (List.suffix_refl _)
          exact ⟨fun _ => Or.inl same, fun _ => ends⟩
        · constructor
          · exact fun ends => Or.inr ⟨same, dotted, ends⟩
          · rintro (equal | ⟨_, _, ends⟩)
            · exact absurd equal same
            · exact ends
      · rw [if_neg dotted, beq_iff_eq]
        show _ ↔ setting.setter = target ∨ (setting.setter ≠ target ∧ _ ∧ _)
        constructor
        · exact fun same => Or.inl same.symm
        · rintro (same | ⟨_, starts, _⟩)
          · exact same.symm
          · exact absurd starts dotted
  | some name =>
      have suffix := matched name declared
      have dotted : startsWith (dot :: name) [dot] = true :=
        startsWith_dot.mpr ⟨name, rfl⟩
      rw [Option.map_some, Option.getD_some, if_pos dotted]
      show suffixMatches target name = true ↔ _ ∨ _
      constructor
      · intro ends
        by_cases confused : Confused setting.setter target (some name)
        · exact Or.inr confused
        · left
          have clear : ¬(Astray setting.setter name ∨ Astray target name ∨
              ((isIpAddress setting.setter = true ∨
                isIpAddress target = true) ∧ setting.setter ≠ target)) :=
            fun odd => confused ⟨ends, odd⟩
          rw [not_or, not_or] at clear
          obtain ⟨setter, astray, addresses⟩ := clear
          constructor
          · exact ⟨(within_iff suffix).mpr setter, (within_iff ends).mpr astray⟩
          · intro address
            by_contra distinct
            exact addresses ⟨address, distinct⟩
      · rintro (⟨⟨_, within⟩, _⟩ | ⟨ends, _⟩)
        · exact within.suffix
        · exact ends

theorem domainMatches_clear {setter target : Text} {declared : Option Text}
    (domainMatches : DomainMatches setter target declared) :
    ¬Confused setter target declared := by
  cases declared with
  | none => exact fun confused => confused.1 domainMatches
  | some domain =>
      obtain ⟨⟨within, within'⟩, addresses⟩ := domainMatches
      rintro ⟨_, astray | astray | ⟨address, distinct⟩⟩
      · exact (within_iff within.suffix).mp within astray
      · exact (within_iff within'.suffix).mp within' astray
      · exact distinct (addresses address)

omit [LinearOrder Time] [Zero Time] in
theorem precedes_trans (first second third : CookieRow Time)
    (before : precedes first second = true)
    (after : precedes second third = true) : precedes first third = true := by
  unfold precedes at *
  simp only [Bool.or_eq_true, decide_eq_true_eq, Bool.and_eq_true, beq_iff_eq,
    Bool.not_eq_true', decide_eq_false_iff_not] at *
  rcases before with shorter | ⟨same, named⟩
  · rcases after with shorter' | ⟨same', _⟩
    · exact Or.inl (shorter'.trans shorter)
    · exact Or.inl (same' ▸ shorter)
  · rcases after with shorter' | ⟨same', named'⟩
    · exact Or.inl (same ▸ shorter')
    · exact Or.inr ⟨same.trans same', List.le_trans named named'⟩

omit [LinearOrder Time] [Zero Time] in
theorem precedes_total (first second : CookieRow Time) :
    (precedes first second || precedes second first) = true := by
  unfold precedes
  simp only [Bool.or_eq_true, decide_eq_true_eq, Bool.and_eq_true, beq_iff_eq,
    Bool.not_eq_true', decide_eq_false_iff_not]
  rcases lt_trichotomy first.path.length second.path.length with
    shorter | same | longer
  · exact Or.inr (Or.inl shorter)
  · rcases List.le_total (first.name.map UInt16.toNat)
      (second.name.map UInt16.toNat) with before | after
    · exact Or.inl (Or.inr ⟨same, before⟩)
    · exact Or.inr (Or.inr ⟨same.symm, after⟩)
  · exact Or.inl (Or.inl longer)

/-- What is sent to a target is what domain matching allows. -/
structure Faithful (host : CookieHost Time) (captures : List (Capture Time))
    (pluginId : Text) (url : Url) (now : Time) : Prop where
  sent_iff : ∀ row,
    row ∈ sentRows host (run host captures) pluginId url now ↔
      ∃ setting, Stored host captures setting ∧ setting.row = row ∧
        isOffered pluginId url now row = true ∧
        DomainMatches setting.setter (host.lower url.hostname)
          setting.declared
  ordered : (sentRows host (run host captures) pluginId url now).Pairwise
    fun first second => second.path.length ≤ first.path.length
  once : (sentRows host (run host captures) pluginId url now).Nodup

theorem mem_sentRows (lowers : Lowers host) {captures : List (Capture Time)}
    {pluginId : Text} {url : Url} {now : Time} {row : CookieRow Time} :
    row ∈ sentRows host (run host captures) pluginId url now ↔
      ∃ setting, Stored host captures setting ∧ setting.row = row ∧
        isOffered pluginId url now row = true ∧
        (DomainMatches setting.setter (host.lower url.hostname)
            setting.declared ∨
          Confused setting.setter (host.lower url.hostname)
            setting.declared) := by
  unfold sentRows isSent
  rw [List.mem_mergeSort, List.mem_filter, mem_run, Bool.and_eq_true]
  constructor
  · rintro ⟨⟨setting, stored, rfl⟩, offered, matched⟩
    exact ⟨setting, stored, rfl, offered,
      (stored.domainMatches lowers _).mp matched⟩
  · rintro ⟨setting, stored, rfl, offered, matched⟩
    exact ⟨⟨setting, stored, rfl⟩, offered,
      (stored.domainMatches lowers _).mpr matched⟩

/-- The jar sends what it should exactly when no cookie that it offers meets
hosts of unusual shape. -/
theorem sentRows_faithful_iff (lowers : Lowers host)
    (captures : List (Capture Time)) (pluginId : Text) (url : Url)
    (now : Time) :
    Faithful host captures pluginId url now ↔
      ∀ setting, Stored host captures setting →
        isOffered pluginId url now setting.row = true →
        ¬Confused setting.setter (host.lower url.hostname)
          setting.declared := by
  constructor
  · intro faithful setting stored offered confused
    have sent := (mem_sentRows lowers).mpr
      ⟨setting, stored, rfl, offered, Or.inr confused⟩
    obtain ⟨other, also, same, _, matched⟩ := (faithful.sent_iff _).mp sent
    have key : other.key = setting.key := congrArg CookieRow.key same
    obtain rfl := also.1.unique stored.1 key
    exact domainMatches_clear matched confused
  · intro clear
    constructor
    · intro row
      rw [mem_sentRows lowers]
      constructor
      · rintro ⟨setting, stored, rfl, offered, matched | confused⟩
        · exact ⟨setting, stored, rfl, offered, matched⟩
        · exact absurd confused (clear setting stored offered)
      · rintro ⟨setting, stored, rfl, offered, matched⟩
        exact ⟨setting, stored, rfl, offered, Or.inl matched⟩
    · have sorted := List.pairwise_mergeSort precedes_trans precedes_total
        ((run host captures).filter (isSent host pluginId url now))
      apply sorted.imp
      intro first second before
      unfold precedes at before
      simp only [Bool.or_eq_true, decide_eq_true_eq, Bool.and_eq_true,
        beq_iff_eq] at before
      rcases before with shorter | ⟨same, _⟩
      · exact Nat.le_of_lt shorter
      · exact Nat.le_of_eq same.symm
    · unfold sentRows
      rw [(List.mergeSort_perm _ _).nodup_iff]
      exact ((run_distinct captures).of_map _).filter _

/-- URLs of the form `http://host/path` in lower case. -/
def plainHost : CookieHost Int where
  parseUrl text :=
    let rest := text.drop 7
    if startsWith text (units "http://") then
      some {
        protocol := units "http:"
        hostname := rest.takeWhile (· != slash)
        pathname := rest.dropWhile (· != slash) }
    else none
  lower text := text
  number _ := none
  after now seconds := now + seconds * 1000
  parseDate _ := none

theorem plainHost_lowers : Lowers plainHost where
  settled _ := rfl
  dotted _ := rfl

def response (url header : String) : Capture Int where
  pluginId := units "plugin"
  url := units url
  setCookieHeaders := [(units header, 0)]

def request (name : String) : Url where
  protocol := units "http:"
  hostname := units name
  pathname := units "/"

/-- A cookie of one subdomain is for another one. -/
theorem subdomain_faithful :
    Faithful plainHost [response "http://a.example.com/"
      "id=1; domain=example.com"] (units "plugin") (request "b.example.com")
      0 := by
  apply (sentRows_faithful_iff plainHost_lowers _ _ _ _).mpr
  intro setting stored _ confused
  obtain rfl := List.mem_singleton.mp stored.1.mem
  obtain ⟨_, astray | astray | ⟨address, _⟩⟩ := confused
  · exact astray.2 (by decide)
  · exact astray.2 (by decide)
  · exact absurd address (by decide)

/-- A cookie of one address is sent to another one. -/
theorem addressSuffix_unfaithful :
    ¬Faithful plainHost [response "http://1.2.3.4/" "id=1; domain=3.4"]
      (units "plugin") (request "9.9.3.4") 0 := by
  intro faithful
  have held : run plainHost [response "http://1.2.3.4/" "id=1; domain=3.4"] =
      [⟨units "plugin", units ".3.4", units "/", units "id", units "1", none,
        false, false⟩] := rfl
  obtain ⟨setting, stored, _, _, matched⟩ := (faithful.sent_iff _).mp
    (List.mem_mergeSort.mpr (List.mem_filter.mpr
      ⟨held ▸ List.mem_singleton.mpr rfl, by decide⟩))
  obtain rfl := List.mem_singleton.mp stored.1.mem
  exact absurd (matched.2 (Or.inl (by decide))) (by decide)

end Motrix.PluginCookies
