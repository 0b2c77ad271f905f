import Motrix.Log.LogFields
import Motrix.Log.PlainUrl

/-!
# What logs do not tell

Two trees of log fields that differ in secrets only are redacted to the same
output: in the values of sensitive fields, and in user, password, fragment and
sensitive query values of URLs, except where a field shows its text.
-/

namespace Motrix.LogRedact

open List Lib.AsciiUnits

/-- Where a value stands: in a field, as an option of the engine, or in a list
of headers or URLs. -/
inductive Slot where
  | field (key : Text)
  | option (key : Text)
  | listed

namespace Slot

def normalized : Slot → Text
  | field key => normalizeKey key
  | option key => normalizeKey key
  | listed => []

def isSensitive (slot : Slot) : Bool :=
  sensitiveValueKeys.contains slot.normalized

/-- A field that shows its text as it is, or a part of it. -/
def shows (profile : Profile) : Slot → Bool
  | field key =>
      normalizeKey key = units "storagekey" ||
        (profile ≠ .application && pluginPathKeys.contains (normalizeKey key))
  | option key => safeEngineOptionKeys.contains (normalizeKey key)
  | listed => false

/-- The names of fields whose texts are not plain ones. -/
def namedKeys (profile : Profile) : List Text :=
  (if profile = .application then [] else pluginPathKeys) ++
    [units "headers", units "extraengineoptions", units "storagekey"] ++
    logUrlKeys ++ logUrlCollectionKeys ++ proxyKeys

def isProse (profile : Profile) : Slot → Bool
  | field key => !(namedKeys profile).contains (normalizeKey key)
  | _ => false

def holdsOptions : Slot → Bool
  | field key => normalizeKey key = units "extraengineoptions"
  | _ => false

def holdsLocations : Slot → Bool
  | field key =>
      normalizeKey key = units "headers" ||
        logUrlCollectionKeys.contains (normalizeKey key)
  | _ => false

def item (slot : Slot) : Slot :=
  if slot.holdsLocations then listed else field []

def child (slot : Slot) (key : Text) : Slot :=
  if slot.holdsOptions then option key else field key

end Slot

namespace LogValue

def isPresent : LogValue → Bool
  | null | undefined => false
  | _ => true

/-- Arrays, records and errors. -/
def isContainer : LogValue → Bool
  | array _ | record _ | error .. => true
  | _ => false

end LogValue

/-- Two values of a field. -/
structure FieldPair where
  key : Text
  value : LogValue
  other : LogValue

namespace FieldPair

def first (pairs : List FieldPair) : Fields :=
  pairs.map fun pair => (pair.key, pair.value)

def second (pairs : List FieldPair) : Fields :=
  pairs.map fun pair => (pair.key, pair.other)

end FieldPair

/-- Values that differ in secrets only. -/
inductive Similar (profile : Profile) : Slot → LogValue → LogValue → Prop where
  | same (slot : Slot) (value : LogValue) : Similar profile slot value value
  | hidden {slot : Slot} {value other : LogValue}
      (sensitive : slot.isSensitive = true)
      (present : value.isPresent = true) (present' : other.isPresent = true) :
      Similar profile slot value other
  | url {slot : Slot} {raw other : Text} (shown : slot.shows profile = false)
      (similar : SimilarUrl raw other) :
      Similar profile slot (.string raw) (.string other)
  | text {slot : Slot} {text other : Text}
      (prose : slot.isProse profile = true)
      (similar : SimilarText text other) :
      Similar profile slot (.string text) (.string other)
  | array {slot : Slot} (pairs : List (LogValue × LogValue))
      (similar : ∀ pair ∈ pairs, Similar profile slot.item pair.1 pair.2) :
      Similar profile slot (.array (pairs.map Prod.fst))
        (.array (pairs.map Prod.snd))
  | record {slot : Slot} (pairs : List FieldPair)
      (similar : ∀ pair ∈ pairs,
        Similar profile (slot.child pair.key) pair.value pair.other) :
      Similar profile slot (.record (FieldPair.first pairs))
        (.record (FieldPair.second pairs))
  | error {slot : Slot} (name : Text) {message message' : Text}
      {stack : Option (Text × Text)} (pairs : List FieldPair)
      (cause : Option (LogValue × LogValue))
      (messages : SimilarText message message')
      (traces : ∀ texts ∈ stack, SimilarText texts.1 texts.2 ∧
        texts.1.length ≤ maxErrorStackChars ∧
        texts.2.length ≤ maxErrorStackChars)
      (similar : ∀ pair ∈ pairs,
        Similar profile (.field pair.key) pair.value pair.other)
      (causes : ∀ pair ∈ cause,
        Similar profile (.field causeKey) pair.1 pair.2) :
      Similar profile slot
        (.error name message (stack.map Prod.fst) (FieldPair.first pairs)
          (cause.map Prod.fst))
        (.error name message' (stack.map Prod.snd) (FieldPair.second pairs)
          (cause.map Prod.snd))

/-! ## Lists and records -/

theorem boundedArrayItems_map {α β : Type} (values : List α) (part : α → β) :
    boundedArrayItems (values.map part) =
      (boundedArrayItems values).map part := by
  unfold boundedArrayItems
  rw [length_map]
  split
  · exact (map_take ..).symm
  · rfl

theorem boundedArrayItems_mem {α : Type} {value : α} {values : List α}
    (member : value ∈ boundedArrayItems values) : value ∈ values := by
  unfold boundedArrayItems at member
  split at member
  · exact mem_of_mem_take member
  · exact member

theorem boundedNames_pairs {α β : Type} {pairs : List α}
    {first second : α → β} {name : β → Option Text}
    (same : ∀ pair ∈ pairs, name (first pair) = name (second pair)) :
    boundedNames (pairs.map first) name =
      boundedNames (pairs.map second) name := by
  have names : ((boundedArrayItems pairs).map first).filterMap name =
      ((boundedArrayItems pairs).map second).filterMap name := by
    rw [filterMap_map, filterMap_map]
    exact filterMap_congr fun pair member =>
      same pair (boundedArrayItems_mem member)
  simp only [boundedNames, boundedArrayItems_map, names, length_map]

theorem boundedItems_pairs {pairs : List (LogValue × LogValue)}
    {redact : LogValue → LogValue}
    (same : ∀ pair ∈ pairs, redact pair.1 = redact pair.2) :
    boundedItems (pairs.map Prod.fst) redact =
      boundedItems (pairs.map Prod.snd) redact := by
  have items : ((boundedArrayItems pairs).map Prod.fst).map redact =
      ((boundedArrayItems pairs).map Prod.snd).map redact := by
    rw [map_map, map_map]
    exact map_congr_left fun pair member =>
      same pair (boundedArrayItems_mem member)
  simp only [boundedItems, boundedArrayItems_map, items, length_map]

theorem addField_pairs (depth : Nat) (profile : Profile)
    (own skips : Text → Bool)
    (redact : Text → LogValue → Option LogValue) :
    ∀ (pairs : List FieldPair) (index : Nat) (out : Fields),
      (∀ pair ∈ pairs,
        redact pair.key pair.value = redact pair.key pair.other) →
      (((FieldPair.first pairs).zipIdx index).filter
          fun entry => !skips entry.1.1).foldl
            (addField depth profile own redact) out =
        (((FieldPair.second pairs).zipIdx index).filter
          fun entry => !skips entry.1.1).foldl
            (addField depth profile own redact) out := by
  intro pairs
  induction pairs with
  | nil => exact fun _ _ _ => rfl
  | cons pair pairs induction =>
      intro index out same
      rw [forall_mem_cons] at same
      have added : addField depth profile own redact out
          ((pair.key, pair.value), index) =
          addField depth profile own redact out
            ((pair.key, pair.other), index) := by
        simp only [addField, same.1]
      have others := induction (index + 1)
      simp only [FieldPair.first, FieldPair.second, map_cons, zipIdx_cons,
        filter_cons] at others ⊢
      split
      · rw [foldl_cons, foldl_cons, added]
        exact others _ same.2
      · exact others _ same.2

theorem boundedRecordKeys_map {α β : Type} (values : List α) (part : α → β) :
    boundedRecordKeys (values.map part) =
      (boundedRecordKeys values).map part := by
  unfold boundedRecordKeys
  rw [length_map]
  split
  · exact (map_take ..).symm
  · rfl

theorem boundedRecordKeys_mem {α : Type} {value : α} {values : List α}
    (member : value ∈ boundedRecordKeys values) : value ∈ values := by
  unfold boundedRecordKeys at member
  split at member
  · exact mem_of_mem_take member
  · exact member

theorem redactEntries_pairs (depth : Nat) (profile : Profile)
    (own skips : Text → Bool) (redact : Text → LogValue → Option LogValue)
    (pairs : List FieldPair)
    (same : ∀ pair ∈ pairs,
      redact pair.key pair.value = redact pair.key pair.other) :
    redactEntries depth profile own redact skips (FieldPair.first pairs) =
      redactEntries depth profile own redact skips
        (FieldPair.second pairs) := by
  have folded := addField_pairs depth profile own skips redact
    (boundedRecordKeys pairs) 0 [] fun pair member =>
      same pair (boundedRecordKeys_mem member)
  simp only [FieldPair.first, FieldPair.second] at folded
  simp only [redactEntries, FieldPair.first, FieldPair.second,
    boundedRecordKeys_map, folded, length_map]

/-! ## Texts -/

theorem mem_dropWhile {α : Type} {drops : α → Bool} {value : α}
    {values : List α} (member : value ∈ values)
    (kept : drops value = false) : value ∈ values.dropWhile drops := by
  rw [← takeWhile_append_dropWhile (p := drops) (l := values),
    mem_append] at member
  rcases member with taken | left
  · simp [mem_takeWhile_imp taken] at kept
  · exact left

theorem validHeaderName_colon {text : Text} (colon : 0x3a ∈ text) :
    validHeaderName text = none := by
  have kept : isWhiteSpace 0x3a = false := rfl
  have trimmed : 0x3a ∈ trim text := by
    rw [trim, rdropWhile, mem_reverse]
    exact mem_dropWhile (mem_reverse.mpr (mem_dropWhile colon kept)) kept
  have invalid : (trim text).all isHeaderUnit = false := by
    rw [all_eq_false]
    exact ⟨0x3a, trimmed, by decide⟩
  simp [validHeaderName, invalid]

theorem UrlText.colon (url : UrlText) : 0x3a ∈ url.text := by
  simp [UrlText.text]

theorem SimilarText.same_or_colon {text other : Text}
    (similar : SimilarText text other) :
    text = other ∨ (0x3a ∈ text ∧ 0x3a ∈ other) := by
  induction similar with
  | same => exact .inl rfl
  | url similar =>
      obtain ⟨url, url', _, _, _, rfl, rfl⟩ := similar
      exact .inr ⟨url.colon, url'.colon⟩
  | joined ends first second firstInduction secondInduction =>
      rcases firstInduction with rfl | ⟨colon, colon'⟩
      · rcases secondInduction with rfl | ⟨colon, colon'⟩
        · exact .inl rfl
        · exact .inr (by simp [colon, colon'])
      · exact .inr (by simp [colon, colon'])

theorem SimilarText.eq_nil_iff {text other : Text}
    (similar : SimilarText text other) : text = [] ↔ other = [] := by
  rcases similar.same_or_colon with rfl | ⟨colon, colon'⟩
  · exact Iff.rfl
  · exact iff_of_false (ne_nil_of_mem colon) (ne_nil_of_mem colon')

theorem SimilarText.validHeaderName {text other : Text}
    (similar : SimilarText text other) :
    validHeaderName text = validHeaderName other := by
  rcases similar.same_or_colon with rfl | ⟨colon, colon'⟩
  · rfl
  · rw [validHeaderName_colon colon, validHeaderName_colon colon']

theorem UrlText.Plain.headerName_text {url : UrlText} (plain : url.Plain) :
    headerName (.string url.text) = LogRedact.validHeaderName url.scheme := by
  have letters : ∀ unit ∈ url.scheme, decide (unit ≠ 0x3a) = true := by
    intro unit member
    have letter := plain.scheme_letter unit member
    refine decide_eq_true ?_
    rintro rfl
    exact absurd letter (by decide)
  have name : url.text.takeWhile (· ≠ 0x3a) = url.scheme := by
    rw [UrlText.text, takeWhile_append_of_pos letters]
    simp
  simp only [headerName, name, contains_eq_mem, url.colon, decide_true,
    plain.scheme_ne, ne_eq, not_false_eq_true, and_self, ↓reduceIte]

/-! ## Names that are no secrets -/

/-- Names with a meaning of their own. -/
def meaningfulKeys : List Text :=
  [[], units "headers", units "extraengineoptions", units "name",
    units "referer"] ++ sensitivePathKeys

theorem meaningfulKeys_insensitive :
    ∀ key ∈ meaningfulKeys, sensitiveValueKeys.contains key = false := by
  decide +kernel

theorem meaningful_insensitive {slot : Slot}
    (meaningful : slot.normalized ∈ meaningfulKeys) :
    slot.isSensitive = false :=
  meaningfulKeys_insensitive _ meaningful

theorem listed_quiet : Slot.listed.isSensitive = false :=
  meaningful_insensitive mem_cons_self

theorem options_apart :
    units "headers" ≠ units "extraengineoptions" ∧
      [] ≠ units "extraengineoptions" ∧
      normalizeKey (units "name") = units "name" := by
  decide +kernel

section Slots

variable {profile : Profile} {slot : Slot} {value other : LogValue}

/-- Outside of plain texts and of secrets, only URLs and containers differ. -/
theorem Similar.cases_quiet (similar : Similar profile slot value other)
    (quiet : slot.isSensitive = false)
    (named : slot.isProse profile = false) :
    value = other ∨
      (slot.shows profile = false ∧ ∃ raw raw', SimilarUrl raw raw' ∧
        value = .string raw ∧ other = .string raw') ∨
      (value.isContainer = true ∧ other.isContainer = true) := by
  cases similar with
  | same => exact .inl rfl
  | hidden sensitive => simp [sensitive] at quiet
  | url shown similar => exact .inr (.inl ⟨shown, _, _, similar, rfl, rfl⟩)
  | text prose => simp [prose] at named
  | array => exact .inr (.inr ⟨rfl, rfl⟩)
  | record => exact .inr (.inr ⟨rfl, rfl⟩)
  | error => exact .inr (.inr ⟨rfl, rfl⟩)

theorem Similar.present (similar : Similar profile slot value other) :
    value = other ∨
      (value.isPresent = true ∧ other.isPresent = true) := by
  cases similar with
  | same => exact .inl rfl
  | hidden _ present present' => exact .inr ⟨present, present'⟩
  | _ => exact .inr ⟨rfl, rfl⟩

end Slots

/-! ## Headers -/

theorem find_name_pairs (pairs : List FieldPair) (key : Text) :
    (∃ pair ∈ pairs, pair.key = key ∧
      (FieldPair.first pairs).find? (·.1 == key) = some (key, pair.value) ∧
      (FieldPair.second pairs).find? (·.1 == key) = some (key, pair.other)) ∨
    ((FieldPair.first pairs).find? (·.1 == key) = none ∧
      (FieldPair.second pairs).find? (·.1 == key) = none) := by
  induction pairs with
  | nil => exact .inr ⟨rfl, rfl⟩
  | cons pair pairs induction =>
      by_cases found : pair.key = key
      · refine .inl ⟨pair, mem_cons_self, found, ?_, ?_⟩ <;>
          simp [FieldPair.first, FieldPair.second, found]
      · have later : (pair.key == key) = false := by
          simpa using found
        simp only [FieldPair.first, FieldPair.second, map_cons, find?_cons,
          later] at induction ⊢
        rcases induction with ⟨found', member, rest⟩ | absent
        · exact .inl ⟨found', mem_cons_of_mem _ member, rest⟩
        · exact .inr absent

/-- The header that a value of the field `name` names. -/
def namedHeader : LogValue → Option Text
  | .string text => validHeaderName text
  | _ => none

theorem namedHeader_similar {profile : Profile} {slot : Slot}
    {value other : LogValue} (similar : Similar profile slot value other)
    (quiet : slot.isSensitive = false) :
    namedHeader value = namedHeader other := by
  cases similar with
  | hidden sensitive => simp [sensitive] at quiet
  | url shown similar => exact (SimilarText.url similar).validHeaderName
  | text prose similar => exact similar.validHeaderName
  | _ => rfl

theorem headerName_record (fields : Fields) :
    headerName (.record fields) =
      ((fields.find? (·.1 == units "name")).map Prod.snd).elim none
        namedHeader := by
  simp only [headerName]
  cases (fields.find? (·.1 == units "name")).map Prod.snd with
  | none => rfl
  | some value => cases value <;> rfl

theorem Similar.headerName {profile : Profile} {slot : Slot}
    {value other : LogValue} (similar : Similar profile slot value other)
    (quiet : slot.isSensitive = false) (named : slot.isProse profile = false)
    (noOptions : slot.holdsOptions = false) :
    headerName value = headerName other := by
  cases similar with
  | same => rfl
  | hidden sensitive => simp [sensitive] at quiet
  | url shown similar =>
      obtain ⟨url, url', plain, plain', parts, rfl, rfl⟩ := similar
      rw [plain.headerName_text, plain'.headerName_text, parts.scheme]
  | text prose => simp [prose] at named
  | array => rfl
  | error => rfl
  | record pairs similar =>
      rw [headerName_record, headerName_record]
      rcases find_name_pairs pairs (units "name") with
        ⟨pair, member, key, first, second⟩ | ⟨first, second⟩
      · have names := similar pair member
        simp only [Slot.child, noOptions, Bool.false_eq_true, ↓reduceIte,
          key] at names
        have nameQuiet : (Slot.field (units "name")).isSensitive = false :=
          meaningful_insensitive (by
            rw [Slot.normalized, options_apart.2.2]
            simp [meaningfulKeys])
        simp [first, second, namedHeader_similar names nameQuiet]
      · simp [first, second]

theorem redactHeaders_container {profile : Profile} {value : LogValue}
    (container : value.isContainer = true) :
    redactHeaders profile value =
      if profile = .application then some (headerNames value) else none := by
  cases value <;> first | rfl | cases container

theorem redactHeaders_similar {profile : Profile} {key : Text}
    {value other : LogValue}
    (similar : Similar profile (.field key) value other)
    (headers : normalizeKey key = units "headers") :
    redactHeaders profile value = redactHeaders profile other := by
  have quiet : (Slot.field key).isSensitive = false :=
    meaningful_insensitive (by simp [Slot.normalized, meaningfulKeys, headers])
  have named : (Slot.field key).isProse profile = false := by
    simp [Slot.isProse, Slot.namedKeys, headers]
  have noOptions : (Slot.field key).holdsOptions = false := by
    rw [Slot.holdsOptions, headers]
    exact decide_eq_false options_apart.1
  have single : boundedNames [value] headerName =
      boundedNames [other] headerName := by
    change boundedNames ([(value, other)].map Prod.fst) headerName =
      boundedNames ([(value, other)].map Prod.snd) headerName
    exact boundedNames_pairs (forall_mem_singleton.mpr
      (similar.headerName quiet named noOptions))
  have names : headerNames value = headerNames other := by
    cases similar with
    | same => rfl
    | hidden sensitive => simp [sensitive] at quiet
    | url => exact single
    | text => exact single
    | error => exact single
    | array pairs similar =>
        refine boundedNames_pairs fun pair member => ?_
        have listed : (Slot.field key).item = .listed := by
          simp [Slot.item, Slot.holdsLocations, headers]
        have pairSimilar := similar pair member
        rw [listed] at pairSimilar
        exact pairSimilar.headerName listed_quiet rfl rfl
    | record pairs similar =>
        simp [headerNames, FieldPair.first, FieldPair.second,
          Function.comp_def]
  rcases similar.cases_quiet quiet named with
    rfl | ⟨_, raw, raw', _, rfl, rfl⟩ | ⟨container, container'⟩
  · rfl
  · simp only [redactHeaders, names]
  · rw [redactHeaders_container container, redactHeaders_container container',
      names]

/-! ## Values by the name of the field -/

section Parser

variable {parseUrl : Text → Option Url}

theorem redactUrlValue_similar {profile : Profile} {slot : Slot}
    {value other : LogValue} (parses : ParsesHost parseUrl)
    (similar : Similar profile slot value other)
    (quiet : slot.isSensitive = false) (named : slot.isProse profile = false)
    (strict : Bool) :
    redactUrlValue parseUrl value strict =
      redactUrlValue parseUrl other strict := by
  have onContainer : ∀ value : LogValue, value.isContainer = true →
      redactUrlValue parseUrl value strict = .string unparseableUrl := by
    intro value container
    cases value <;> first | rfl | cases container
  rcases similar.cases_quiet quiet named with
    rfl | ⟨_, raw, raw', url, rfl, rfl⟩ | ⟨container, container'⟩
  · rfl
  · simp only [redactUrlValue, url.redacted parses]
  · rw [onContainer _ container, onContainer _ container']

theorem SimilarUrl.short {raw other : Text} (similar : SimilarUrl raw other) :
    ¬ raw.length > maxParseableLocationChars ∧
      ¬ other.length > maxParseableLocationChars := by
  obtain ⟨url, url', plain, plain', _, rfl, rfl⟩ := similar
  exact ⟨Nat.not_lt.mpr plain.length, Nat.not_lt.mpr plain'.length⟩

theorem SimilarUrl.origin {raw other : Text} (similar : SimilarUrl raw other)
    (parses : ParsesHost parseUrl) :
    (parseUrl raw).map (fun url => (url.protocol, url.host)) =
      (parseUrl other).map fun url => (url.protocol, url.host) := by
  obtain ⟨url, url', plain, plain', parts, rfl, rfl⟩ := similar
  have hosts := parses.host url url' plain plain' parts.scheme parts.host
  have protocol := parses.protocol url plain
  have protocol' := parses.protocol url' plain'
  cases parsed : parseUrl url.text <;> cases parsed' : parseUrl url'.text <;>
    simp_all [parts.scheme]

theorem redactCollectionValue_similar {profile : Profile} {slot : Slot}
    {value other : LogValue} (parses : ParsesHost parseUrl)
    (similar : Similar profile slot value other)
    (quiet : slot.isSensitive = false) (named : slot.isProse profile = false)
    (locations : slot.holdsLocations = true) (strict : Bool) :
    redactCollectionValue parseUrl value strict =
      redactCollectionValue parseUrl other strict := by
  cases similar with
  | same => rfl
  | hidden sensitive => simp [sensitive] at quiet
  | text prose => simp [prose] at named
  | record => rfl
  | error => rfl
  | array pairs similar =>
      refine boundedItems_pairs fun pair member => ?_
      have pairSimilar := similar pair member
      simp only [Slot.item, locations, ↓reduceIte] at pairSimilar
      exact redactUrlValue_similar parses pairSimilar listed_quiet rfl strict
  | @url _ raw raw' shown similar =>
      have origin := similar.origin parses
      have url := similar.redacted parses strict
      have text := (SimilarText.url similar).redacted parses strict
      simp only [redactCollectionValue, similar.short.1, similar.short.2,
        ↓reduceIte, url, text]
      cases parsed : parseUrl raw <;> cases parsed' : parseUrl raw' <;>
        simp_all

theorem redactProxy_similar {profile : Profile} {slot : Slot}
    {value other : LogValue} (parses : ParsesHost parseUrl)
    (similar : Similar profile slot value other)
    (quiet : slot.isSensitive = false)
    (named : slot.isProse profile = false) :
    redactProxy parseUrl value = redactProxy parseUrl other := by
  have onContainer : ∀ value : LogValue, value.isContainer = true →
      redactProxy parseUrl value = unparseableProxy := by
    intro value container
    cases value <;> first | rfl | cases container
  rcases similar.cases_quiet quiet named with
    rfl | ⟨_, raw, raw', url, rfl, rfl⟩ | ⟨container, container'⟩
  · rfl
  · have origin := url.origin parses
    simp only [redactProxy, url.short.1, url.short.2, ↓reduceIte]
    cases parsed : parseUrl raw <;> cases parsed' : parseUrl raw' <;>
      simp_all
  · rw [onContainer _ container, onContainer _ container']

/-- What is made of a container where only texts are looked at. -/
theorem redactStorageKey_container {value : LogValue}
    (container : value.isContainer = true) :
    redactStorageKey value = redactedText := by
  cases value <;> first | rfl | cases container

theorem basenameValue_container {value : LogValue}
    (container : value.isContainer = true) :
    basenameValue value = .string (units "[unparseable-path]") := by
  cases value <;> first | rfl | cases container

theorem safeOption_container {value : LogValue}
    (container : value.isContainer = true) :
    safeOption value = redactedText := by
  cases value <;> first | rfl | cases container

/-- An option of the engine keeps its secrets. -/
theorem redactOption_similar {profile : Profile} {key : Text}
    {value other : LogValue} (parses : ParsesHost parseUrl)
    (similar : Similar profile (.option key) value other) (strict : Bool) :
    redactOption parseUrl strict key value =
      redactOption parseUrl strict key other := by
  by_cases sensitive : (Slot.option key).isSensitive = true
  · have listed : normalizeKey key ∈ sensitiveValueKeys := by
      simpa [Slot.isSensitive, Slot.normalized] using sensitive
    have apart : normalizeKey key ∉ meaningfulKeys := by
      intro meaningful
      have quiet : (Slot.option key).isSensitive = false :=
        meaningful_insensitive meaningful
      simp [quiet] at sensitive
    simp only [meaningfulKeys, mem_append, mem_cons, not_mem_nil, not_or]
      at apart
    simp only [redactOption, apart, ↓reduceIte, contains_eq_mem, listed,
      decide_true, decide_false, Bool.false_eq_true]
  · have quiet := eq_false_of_ne_true sensitive
    have url := redactUrlValue_similar parses similar quiet rfl strict
    have safe : safeEngineOptionKeys.contains (normalizeKey key) = true →
        safeOption value = safeOption other := by
      intro listed
      rcases similar.cases_quiet quiet rfl with
        rfl | ⟨shown, _⟩ | ⟨container, container'⟩
      · rfl
      · rw [Slot.shows, listed] at shown
        cases shown
      · rw [safeOption_container container, safeOption_container container']
    simp only [redactOption, url]
    split_ifs with _ _ _ listed
    · rfl
    · rfl
    · rfl
    · exact safe listed
    · rfl

theorem redactExtraEngineOptions_similar {profile : Profile} {slot : Slot}
    {value other : LogValue} (parses : ParsesHost parseUrl)
    (similar : Similar profile slot value other)
    (quiet : slot.isSensitive = false) (options : slot.holdsOptions = true)
    (strict : Bool) :
    redactExtraEngineOptions parseUrl value strict =
      redactExtraEngineOptions parseUrl other strict := by
  cases similar with
  | same => rfl
  | hidden sensitive => simp [sensitive] at quiet
  | url => rfl
  | text => rfl
  | array => rfl
  | error => rfl
  | record pairs similar =>
      have entries := redactEntries_pairs 1 .application (fun _ => false)
        (fun _ => false)
        (fun key value => some (redactOption parseUrl strict key value)) pairs
        fun pair member => by
          have option := similar pair member
          simp only [Slot.child, options, ↓reduceIte] at option
          rw [redactOption_similar parses option]
      simp only [redactExtraEngineOptions, entries]

theorem redactStack_similar {stack : Option (Text × Text)}
    (parses : ParsesHost parseUrl) (profile : Profile)
    (traces : ∀ texts ∈ stack, SimilarText texts.1 texts.2 ∧
      texts.1.length ≤ maxErrorStackChars ∧
      texts.2.length ≤ maxErrorStackChars) :
    redactStack parseUrl profile (stack.map Prod.fst) =
      redactStack parseUrl profile (stack.map Prod.snd) := by
  cases stack with
  | none => rfl
  | some texts =>
      obtain ⟨similar, short, short'⟩ := traces texts rfl
      simp only [redactStack, Option.map_some, truncateText, short, short',
        ↓reduceIte, similar.eq_nil_iff, similar.redacted parses]

/-- What an error is caused by is the value of its field or its own. -/
theorem ownCause_pairs {pairs : List FieldPair}
    {cause : Option (LogValue × LogValue)}
    {redact : Text → LogValue → Option LogValue}
    (same : ∀ pair ∈ pairs,
      redact pair.key pair.value = redact pair.key pair.other)
    (sameCause : ∀ pair ∈ cause,
      redact causeKey pair.1 = redact causeKey pair.2) :
    (ownCause (FieldPair.first pairs) (cause.map Prod.fst)).map
        (redact causeKey) =
      (ownCause (FieldPair.second pairs) (cause.map Prod.snd)).map
        (redact causeKey) := by
  rcases find_name_pairs pairs causeKey with
    ⟨pair, member, key, first, second⟩ | ⟨first, second⟩
  · have causes := same pair member
    rw [key] at causes
    simp [ownCause, first, second, causes]
  · cases cause with
    | none => simp [ownCause, first, second]
    | some causes => simp [ownCause, first, second, sameCause causes rfl]

theorem redactError_pairs {pairs : List FieldPair}
    {cause : Option (LogValue × LogValue)} {message message' : Text}
    {stack : Option (Text × Text)} (parses : ParsesHost parseUrl)
    (depth : Nat) (profile : Profile)
    {redact : Text → LogValue → Option LogValue} (name : Text)
    (messages : SimilarText message message')
    (traces : ∀ texts ∈ stack, SimilarText texts.1 texts.2 ∧
      texts.1.length ≤ maxErrorStackChars ∧
      texts.2.length ≤ maxErrorStackChars)
    (same : ∀ pair ∈ pairs,
      redact pair.key pair.value = redact pair.key pair.other)
    (sameCause : ∀ pair ∈ cause,
      redact causeKey pair.1 = redact causeKey pair.2) :
    redactError parseUrl depth profile redact name message
        (stack.map Prod.fst) (FieldPair.first pairs) (cause.map Prod.fst) =
      redactError parseUrl depth profile redact name message'
        (stack.map Prod.snd) (FieldPair.second pairs)
        (cause.map Prod.snd) := by
  have entries := fun own skips =>
    redactEntries_pairs depth profile own skips redact pairs same
  have causes := ownCause_pairs same sameCause
  have keys : (boundedRecordKeys (FieldPair.first pairs)).any
        (·.1 == causeKey) =
      (boundedRecordKeys (FieldPair.second pairs)).any
        (·.1 == causeKey) := by
    simp only [FieldPair.first, FieldPair.second, boundedRecordKeys_map,
      any_map, Function.comp_def]
  simp only [redactError, redactStack_similar parses profile traces,
    messages.redacted parses, entries, keys]
  generalize ownCause (FieldPair.first pairs) (cause.map Prod.fst) = own,
    ownCause (FieldPair.second pairs) (cause.map Prod.snd) = own' at causes ⊢
  cases own with
  | none => cases own' <;> simp_all
  | some first =>
      cases own' with
      | none => simp at causes
      | some second =>
          simp only [Option.map_some, Option.some.injEq] at causes
          simp only [causes]

/-- Values of a field whose name has no say. -/
theorem redactPlain_similar {profile : Profile} {key : Text}
    {value other : LogValue} {redact : Text → LogValue → Option LogValue}
    (parses : ParsesHost parseUrl) (depth : Nat)
    (similar : Similar profile (.field key) value other)
    (quiet : (Slot.field key).isSensitive = false)
    (noOptions : (Slot.field key).holdsOptions = false)
    (noLocations : (Slot.field key).holdsLocations = false)
    (same : ∀ key value other, Similar profile (.field key) value other →
      redact key value = redact key other) :
    redactPlain parseUrl depth profile redact value =
      redactPlain parseUrl depth profile redact other := by
  cases similar with
  | same => rfl
  | hidden sensitive => simp [sensitive] at quiet
  | url shown similar =>
      simp only [redactPlain, (SimilarText.url similar).redacted parses]
  | text prose similar => simp only [redactPlain, similar.redacted parses]
  | array pairs similar =>
      refine boundedItems_pairs fun pair member => ?_
      have item := similar pair member
      simp only [Slot.item, noLocations, Bool.false_eq_true, ↓reduceIte]
        at item
      rw [same _ _ _ item]
  | record pairs similar =>
      have entries := redactEntries_pairs depth profile (fun _ => false)
        (fun _ => false) redact pairs fun pair member => by
          have field := similar pair member
          simp only [Slot.child, noOptions, Bool.false_eq_true, ↓reduceIte]
            at field
          exact same _ _ _ field
      simp only [redactPlain, entries]
  | error name pairs cause messages traces similar causes =>
      exact redactError_pairs parses depth profile name messages traces
        (fun pair member => same _ _ _ (similar pair member))
        fun pair member => same _ _ _ (causes pair member)

theorem redactKeyed_similar {profile : Profile} {key : Text}
    {value other : LogValue} {redact : Text → LogValue → Option LogValue}
    (parses : ParsesHost parseUrl) (depth : Nat)
    (similar : Similar profile (.field key) value other)
    (noHeaders : normalizeKey key ≠ units "headers")
    (same : ∀ key value other, Similar profile (.field key) value other →
      redact key value = redact key other) :
    redactKeyed parseUrl depth profile redact (normalizeKey key) value =
      redactKeyed parseUrl depth profile redact (normalizeKey key) other := by
  by_cases sensitive : (Slot.field key).isSensitive = true
  · have listed : normalizeKey key ∈ sensitiveValueKeys := by
      simpa [Slot.isSensitive, Slot.normalized] using sensitive
    have noOptions : normalizeKey key ≠ units "extraengineoptions" := by
      intro options
      have quiet : (Slot.field key).isSensitive = false :=
        meaningful_insensitive
          (by simp [Slot.normalized, meaningfulKeys, options])
      simp [quiet] at sensitive
    simp only [redactKeyed, noOptions, ↓reduceIte, contains_eq_mem, listed,
      decide_true]
  · have quiet := eq_false_of_ne_true sensitive
    have named : normalizeKey key ∈ Slot.namedKeys profile →
        (Slot.field key).isProse profile = false := by
      intro listed
      simp only [Slot.isProse, contains_eq_mem, listed, decide_true,
        Bool.not_true]
    simp only [redactKeyed]
    split_ifs with options hidden path url locations proxy storage basename
    · exact redactExtraEngineOptions_similar parses similar quiet
        (by simp [Slot.holdsOptions, options]) _
    · rfl
    · rfl
    · exact redactUrlValue_similar parses similar quiet
        (named (by simp [Slot.namedKeys, contains_iff_mem.mp url])) _
    · exact redactCollectionValue_similar parses similar quiet
        (named (by simp [Slot.namedKeys, contains_iff_mem.mp locations]))
        (by rw [Slot.holdsLocations, locations, Bool.or_true]) _
    · have proxies := redactProxy_similar parses similar quiet
        (named (by simp [Slot.namedKeys, contains_iff_mem.mp proxy]))
      rcases similar.cases_quiet quiet
          (named (by simp [Slot.namedKeys, contains_iff_mem.mp proxy])) with
        rfl | ⟨_, raw, raw', _, rfl, rfl⟩ | ⟨container, container'⟩
      · rfl
      · exact proxies
      · cases value <;> cases container <;> cases other <;>
          cases container' <;> exact proxies
    · rcases similar.cases_quiet quiet
          (named (by simp [Slot.namedKeys, storage])) with
        rfl | ⟨shown, _⟩ | ⟨container, container'⟩
      · rfl
      · simp [Slot.shows, storage] at shown
      · rw [redactStorageKey_container container,
          redactStorageKey_container container']
    · rcases similar.cases_quiet quiet
          (named (by simp [Slot.namedKeys, basename.1,
            contains_iff_mem.mp basename.2])) with
        rfl | ⟨shown, _⟩ | ⟨container, container'⟩
      · rfl
      · simp [Slot.shows, basename.1, contains_iff_mem.mp basename.2] at shown
      · rw [basenameValue_container container,
          basenameValue_container container']
    · exact redactPlain_similar parses depth similar quiet
        (by simp [Slot.holdsOptions, options])
        (by rw [Slot.holdsLocations, eq_false_of_ne_true locations,
          decide_eq_false noHeaders, Bool.or_false]) same

theorem redactValue_present {profile : Profile} {value : LogValue}
    (present : value.isPresent = true) (remaining : Nat) (key : Text) :
    redactValue parseUrl profile (remaining + 1) key value =
      if commonDropKeys.contains (normalizeKey key) then none
      else if normalizeKey key = units "headers" then
        redactHeaders profile value
      else
        some (redactKeyed parseUrl (maxDepth - remaining) profile
          (redactValue parseUrl profile remaining) (normalizeKey key)
          value) := by
  cases value <;> first | rfl | cases present

/-- Level by level, from the bound on the depth upwards. -/
theorem redactValue_similar {profile : Profile}
    (parses : ParsesHost parseUrl) (remaining : Nat) :
    ∀ (key : Text) (value other : LogValue),
      Similar profile (.field key) value other →
        redactValue parseUrl profile remaining key value =
          redactValue parseUrl profile remaining key other := by
  induction remaining with
  | zero => exact fun _ _ _ _ => rfl
  | succ remaining induction =>
      intro key value other similar
      rcases similar.present with rfl | ⟨present, present'⟩
      · rfl
      · rw [redactValue_present present, redactValue_present present']
        split_ifs with dropped headers
        · rfl
        · exact redactHeaders_similar similar headers
        · rw [redactKeyed_similar parses _ similar headers induction]

/-- Fields that differ in secrets only are logged alike. -/
theorem redactLogFields_similar {fields others : Fields} {profile : Profile}
    (parses : ParsesHost parseUrl)
    (similar : Similar profile (.field []) (.record fields)
      (.record others)) :
    redactLogFields parseUrl profile fields =
      redactLogFields parseUrl profile others := by
  cases similar with
  | same => rfl
  | hidden sensitive =>
      have quiet : (Slot.field []).isSensitive = false :=
        meaningful_insensitive mem_cons_self
      simp [quiet] at sensitive
  | record pairs similar =>
      refine redactEntries_pairs 0 profile _ _ _ pairs fun pair member => ?_
      have noOptions : (Slot.field []).holdsOptions = false :=
        decide_eq_false options_apart.2.1
      have field := similar pair member
      simp only [Slot.child, noOptions, Bool.false_eq_true, ↓reduceIte]
        at field
      exact redactValue_similar parses maxDepth _ _ _ field

end Parser

/-! ## Examples -/

/-- The parts of a plainly written URL; its host is kept as it is written. -/
def writtenUrl (raw : Text) : Option Url :=
  (behindScheme raw).map fun behind =>
    { protocol := (raw.takeWhile isSchemeUnit).map lowerAscii ++ [0x3a]
      host := (behind.takeWhile (!endsAuthority ·)).rtakeWhile (· ≠ 0x40)
      pathname := (behind.dropWhile (!endsAuthority ·)).takeWhile
        (!endsPath ·) }

theorem UrlText.Plain.host_written {url : UrlText} (plain : url.Plain) :
    url.authority.rtakeWhile (· ≠ 0x40) = url.host := by
  have kept : ∀ unit ∈ url.host.reverse, decide (unit ≠ 0x40) = true := by
    intro unit member
    exact decide_eq_true
      (ne_of_mem_of_not_mem (mem_reverse.mp member) plain.hostAt)
  rw [UrlText.authority, rtakeWhile, reverse_append,
    takeWhile_append_of_pos kept]
  cases url.userinfo <;> simp

theorem writtenUrl_text {url : UrlText} (plain : url.Plain) :
    (writtenUrl url.text).map (fun url => (url.protocol, url.host)) =
      some (url.scheme.map lowerAscii ++ [0x3a], url.host) := by
  have scheme : url.text.takeWhile isSchemeUnit = url.scheme := by
    have units : ∀ unit ∈ url.scheme, isSchemeUnit unit = true :=
      fun unit member => letter_schemeUnit (plain.scheme_letter unit member)
    have stops : isSchemeUnit 0x3a = false := rfl
    rw [UrlText.text, takeWhile_append_of_pos units]
    simp [stops]
  have authority := takeWhile_until plain.authority plain.behind_starts
  simp only [writtenUrl, plain.behindScheme_text, Option.map_some, scheme,
    authority, plain.host_written]

theorem writtenUrl_parses : ParsesHost writtenUrl := by
  constructor
  · intro url plain parsed found
    have parts := writtenUrl_text plain
    rw [Option.mem_def.mp found] at parts
    simpa using congrArg (Option.map Prod.fst) parts
  · intro url other plain plain' _ host
    have parts := congrArg (Option.map Prod.snd) (writtenUrl_text plain)
    have parts' := congrArg (Option.map Prod.snd) (writtenUrl_text plain')
    simp only [Option.map_map, Function.comp_def, Option.map_some]
      at parts parts'
    exact parts.trans (host ▸ parts'.symm)

/-- A URL on `example.org` with a user and a token. -/
def signedUrl (userinfo token : Text) : UrlText where
  scheme := units "https"
  userinfo := some userinfo
  host := units "example.org"
  path := units "/a"
  query := some (units "b=1&token=" ++ token)
  fragment := none

theorem signedUrl_plain :
    (signedUrl (units "ann:one") (units "1")).Plain ∧
      (signedUrl (units "bob:two") (units "2")).Plain :=
  ⟨.of_isPlain (by decide +kernel), .of_isPlain (by decide +kernel)⟩

theorem signedUrl_query :
    SimilarQuery (units "b=1&token=" ++ units "1")
      (units "b=1&token=" ++ units "2") := by
  have parts : (units "b=1&token=" ++ units "1").splitOn 0x26 =
      [units "b=1", units "token=1"] := by
    decide +kernel
  have parts' : (units "b=1&token=" ++ units "2").splitOn 0x26 =
      [units "b=1", units "token=2"] := by
    decide +kernel
  rw [SimilarQuery, parts, parts']
  refine .cons (.inl rfl) (.cons (.inr ?_) .nil)
  refine ⟨?_, ?_, ?_, ?_⟩ <;> decide +kernel

theorem signedUrl_parts {userinfo userinfo' token token' : Text}
    (query : SimilarQuery (units "b=1&token=" ++ token)
      (units "b=1&token=" ++ token')) :
    (signedUrl userinfo token).Similar (signedUrl userinfo' token') :=
  ⟨rfl, rfl, rfl, .some query⟩

theorem signedUrl_similar :
    SimilarUrl (signedUrl (units "ann:one") (units "1")).text
      (signedUrl (units "bob:two") (units "2")).text :=
  ⟨_, _, signedUrl_plain.1, signedUrl_plain.2,
    signedUrl_parts signedUrl_query, rfl, rfl⟩

/-- A failed request: the URL and the header of its cause. -/
def failedRequest (url password : Text) : Fields :=
  [(units "url", .string url),
    (units "reason", .error (units "Error") (units "failed") none []
      (some (.record [(units "Authorization", .string password)])))]

theorem failedRequest_similar {profile : Profile} {url url' : Text}
    (urls : SimilarUrl url url') (password password' : Text) :
    Similar profile (.field []) (.record (failedRequest url password))
      (.record (failedRequest url' password')) := by
  have child : ∀ key, (Slot.field []).child key = .field key := fun _ => rfl
  have shown : (Slot.field (units "url")).shows profile = false := by
    cases profile <;> decide +kernel
  have sensitive :
      (Slot.field (units "Authorization")).isSensitive = true := by
    decide +kernel
  have header : Similar profile (.field causeKey)
      (.record [(units "Authorization", .string password)])
      (.record [(units "Authorization", .string password')]) := by
    refine .record [⟨units "Authorization", _, _⟩] ?_
    simp only [forall_mem_singleton]
    exact .hidden sensitive rfl rfl
  have error := @Similar.error profile (.field (units "reason"))
    (units "Error") (units "failed") (units "failed") none []
    (some (.record [(units "Authorization", .string password)],
      .record [(units "Authorization", .string password')]))
    (.same _) (by simp) (by simp) (by simpa using header)
  refine .record [⟨units "url", _, _⟩, ⟨units "reason", _, _⟩] ?_
  simp only [forall_mem_cons, child]
  exact ⟨.url shown urls, error, by simp⟩

/-- Neither the user and the token of the URL nor the header shows. -/
theorem redactLogFields_failedRequest :
    redactLogFields writtenUrl .exported
        (failedRequest (signedUrl (units "ann:one") (units "1")).text
          (units "x")) =
      redactLogFields writtenUrl .exported
        (failedRequest (signedUrl (units "bob:two") (units "2")).text
          (units "y")) :=
  redactLogFields_similar writtenUrl_parses
    (failedRequest_similar signedUrl_similar _ _)

/-- The text of a redacted value. -/
def shownText : LogValue → Text
  | .string text => text
  | _ => []

def ftpUrl (password : Text) : UrlText where
  scheme := units "ftp"
  userinfo := some (units "a:" ++ password)
  host := units "h"
  path := units "/"
  query := none
  fragment := none

theorem ftpUrl_parts (password password' : Text) :
    (ftpUrl password).Similar (ftpUrl password') :=
  ⟨rfl, rfl, rfl, .none⟩

theorem ftpUrl_plain :
    (ftpUrl (units "1")).Plain ∧ (ftpUrl (units "2")).Plain :=
  ⟨.of_isPlain (by decide +kernel), .of_isPlain (by decide +kernel)⟩

/-- A short URL under a storage key shows its password. -/
theorem storageKey_shows :
    SimilarUrl (ftpUrl (units "1")).text (ftpUrl (units "2")).text ∧
      redactLogFields writtenUrl .application
          [(units "storageKey", .string (ftpUrl (units "1")).text)] ≠
        redactLogFields writtenUrl .application
          [(units "storageKey", .string (ftpUrl (units "2")).text)] := by
  constructor
  · exact ⟨_, _, ftpUrl_plain.1, ftpUrl_plain.2, ftpUrl_parts _ _, rfl, rfl⟩
  · intro equal
    have texts := congrArg (map fun field => shownText field.2) equal
    exact absurd texts (by decide +kernel)

end Motrix.LogRedact
