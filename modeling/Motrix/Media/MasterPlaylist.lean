import Motrix.Lib.Except
import Motrix.Media.AttributeReading

/-!
# The master playlist parser

The parser of master playlists picks the variant with the largest bandwidth
that it reads.  Where the name of the bandwidth is unmistaken, that is the
largest bandwidth of the playlist.
-/

namespace Motrix.Media

open Motrix.Lib

structure Variant where
  url : Text
  bandwidth : Number
  audioGroup : Option Text
  deriving DecidableEq, Repr

structure MasterSelection where
  variantUrl : Text
  audioUrl : Option Text
  deriving DecidableEq, Repr

def isFilled (text : Text) : Bool := !text.isEmpty

/-- The comparison of numbers, which fails for NaN. -/
def isGreater (left right : Number) : Bool :=
  match left, right with
  | some left, some right => right < left
  | _, _ => false

/-- The URI line behind a variant, if it has one. -/
def variantUri (rest : List Text) : Option Text :=
  (rest.head?.map trim).filter fun uri => isFilled uri && !startsWith "#" uri

section Parser

variable (resolveUri : Text → Text → Except ParseFailure Text)

/-- `audioRenditions`, the latest one of a group in front. -/
def collectRenditions (url : Text) :
    List Text → List (Text × Text) → Except ParseFailure (List (Text × Text))
  | [], found => .ok found
  | line :: rest, found =>
      match afterTag "#EXT-X-MEDIA:" line with
      | none => collectRenditions url rest found
      | some attrs =>
          if attr attrs "TYPE" = some "AUDIO".toList then
            match (attr attrs "GROUP-ID").filter isFilled,
                (attr attrs "URI").filter isFilled with
            | some groupId, some uri => do
                let resolved ← resolveUri url uri
                collectRenditions url rest ((groupId, resolved) :: found)
            | _, _ => collectRenditions url rest found
          else collectRenditions url rest found

def collectVariants (url : Text) :
    List Text → Except ParseFailure (List Variant)
  | [] => .ok []
  | line :: rest =>
      match afterTag "#EXT-X-STREAM-INF:" line with
      | none => collectVariants url rest
      | some attrs =>
          match variantUri rest with
          | none => collectVariants url rest
          | some uriLine => do
              let resolved ← resolveUri url uriLine
              let others ← collectVariants url rest
              return {
                url := resolved
                bandwidth :=
                  number ((attr attrs "BANDWIDTH").getD "0".toList)
                audioGroup := attr attrs "AUDIO" } :: others

def betterVariant (best variant : Variant) : Variant :=
  if isGreater variant.bandwidth best.bandwidth then variant else best

def bestVariant (first : Variant) (rest : List Variant) : Variant :=
  rest.foldl betterVariant first

def parseHlsMaster (text url : Text) : Except ParseFailure MasterSelection := do
  let lines := splitLines text
  let audioRenditions ← collectRenditions resolveUri url lines []
  let variants ← collectVariants resolveUri url lines
  match variants with
  | [] =>
      throw (.media .unsupportedMaster "master playlist has no variants")
  | first :: rest =>
      let best := bestVariant first rest
      return {
        variantUrl := best.url
        audioUrl := (best.audioGroup.bind fun group =>
          audioRenditions.lookup group).filter isFilled }

end Parser

/-! ## Declared attributes -/

/-- The value a list declares for a name. -/
def AttributeList.declared (list : AttributeList) (name : AttrName) :
    Option Text :=
  (list.lookup name).map (·.value.text)

def bandwidthName : AttrName where
  text := "BANDWIDTH"
  filled := by decide
  letters := List.all_eq_true.mp (by decide)

def methodName : AttrName where
  text := "METHOD"
  filled := by decide
  letters := List.all_eq_true.mp (by decide)

def uriName : AttrName where
  text := "URI"
  filled := by decide
  letters := List.all_eq_true.mp (by decide)

def ivName : AttrName where
  text := "IV"
  filled := by decide
  letters := List.all_eq_true.mp (by decide)

def declaredBandwidth (list : AttributeList) : Number :=
  number ((list.declared bandwidthName).getD "0".toList)

/-- A variant of the playlist: its attribute list and its URI line. -/
structure DeclaresVariant (lines : List Text) (list : AttributeList)
    (uri : Text) : Prop where
  placed : ∃ before rest,
    lines = before ++ ("#EXT-X-STREAM-INF:".toList ++ list.render) :: rest ∧
      variantUri rest = some uri

/-- Every variant has a well-formed list with a bandwidth that is a number and
is unmistaken. -/
def BandwidthsUnmistaken (lines : List Text) : Prop :=
  ∀ line ∈ lines, ∀ attrs, afterTag "#EXT-X-STREAM-INF:" line = some attrs →
    ∃ list : AttributeList, attrs = list.render ∧
      Unmistaken list bandwidthName ∧ (declaredBandwidth list).isSome

def declaredKeyUri (list : AttributeList) : Except ParseFailure Text :=
  match list.declared uriName with
  | some (first :: rest) => .ok (first :: rest)
  | _ => .error (.media .unsupportedEncryption "AES-128 key missing URI")

/-- The state behind a key with the values its list declares. -/
def declaredKey (resolveUri : Text → Text → Except ParseFailure Text)
    (url : Text) (state : ScanState) (list : AttributeList) :
    Except ParseFailure ScanState :=
  let method := list.declared methodName
  if method = some "NONE".toList then
    .ok { state with activeKey := none }
  else if method = some "AES-128".toList then do
    let keyUri ← declaredKeyUri list
    let ivBytes :=
      ((list.declared ivName).filter fun iv => !iv.isEmpty).map parseIvHex
    let uri ← resolveUri url keyUri
    let _ ← placeholderIv ivBytes state.seq
    return { state with
      activeKey := some ⟨uri, (list.declared ivName).isSome, ivBytes⟩ }
  else
    .error (unsupportedMethod method)

/-! ## The best variant -/

variable {resolveUri : Text → Text → Except ParseFailure Text} {url : Text}

theorem afterTag_append (tag : String) (rest : Text) :
    afterTag tag (tag.toList ++ rest) = some rest := by
  unfold afterTag
  have start : tag.toList.isPrefixOf (tag.toList ++ rest) = true :=
    List.isPrefixOf_iff_prefix.mpr (List.prefix_append _ _)
  rw [if_pos start, List.drop_left]

theorem afterTag_eq_some {tag : String} {line rest : Text}
    (found : afterTag tag line = some rest) : line = tag.toList ++ rest := by
  unfold afterTag at found
  split at found
  · rename_i start
    cases found
    obtain ⟨further, split⟩ := List.isPrefixOf_iff_prefix.mp start
    rw [← split, List.drop_left]
  · cases found

theorem DeclaresVariant.later {lines : List Text} {list : AttributeList}
    {uri : Text} (declares : DeclaresVariant lines list uri) (line : Text) :
    DeclaresVariant (line :: lines) list uri := by
  obtain ⟨before, rest, split, found⟩ := declares.placed
  exact ⟨line :: before, rest, by rw [split, List.cons_append], found⟩

/-- A variant stands at the first line or behind it. -/
theorem DeclaresVariant.cases_cons {line : Text} {lines : List Text}
    {list : AttributeList} {uri : Text}
    (declares : DeclaresVariant (line :: lines) list uri) :
    (afterTag "#EXT-X-STREAM-INF:" line = some list.render ∧
        variantUri lines = some uri) ∨
      DeclaresVariant lines list uri := by
  obtain ⟨before, rest, split, found⟩ := declares.placed
  cases before with
  | nil =>
      left
      obtain ⟨here, behind⟩ := List.cons.inj split
      rw [here, behind]
      exact ⟨afterTag_append _ _, found⟩
  | cons first before =>
      right
      exact ⟨before, rest, (List.cons.inj split).2, found⟩

theorem bandwidth_declared {list : AttributeList}
    (unmistaken : Unmistaken list bandwidthName) :
    number ((attr list.render "BANDWIDTH").getD "0".toList) =
      declaredBandwidth list := by
  have read := (attr_eq_lookup_iff list bandwidthName).mpr unmistaken
  unfold declaredBandwidth AttributeList.declared
  rw [← read]
  rfl

/-- A collected variant has the bandwidth that its list declares. -/
structure DeclaredIn (resolveUri : Text → Text → Except ParseFailure Text)
    (url : Text) (lines : List Text) (variant : Variant) : Prop where
  finite : variant.bandwidth.isSome
  declared : ∃ list uri, DeclaresVariant lines list uri ∧
    Unmistaken list bandwidthName ∧
      resolveUri url uri = .ok variant.url ∧
        variant.bandwidth = declaredBandwidth list

theorem DeclaredIn.later {lines : List Text} {variant : Variant}
    (declared : DeclaredIn resolveUri url lines variant) (line : Text) :
    DeclaredIn resolveUri url (line :: lines) variant := by
  obtain ⟨list, uri, declares, rest⟩ := declared.declared
  exact ⟨declared.finite, list, uri, declares.later line, rest⟩

theorem collectVariants_declared {lines : List Text} {variants : List Variant}
    (unmistaken : BandwidthsUnmistaken lines)
    (collected : collectVariants resolveUri url lines = .ok variants) :
    (∀ variant ∈ variants, DeclaredIn resolveUri url lines variant) ∧
    (∀ list uri, DeclaresVariant lines list uri →
      Unmistaken list bandwidthName →
        ∃ variant ∈ variants, variant.bandwidth = declaredBandwidth list) := by
  induction lines generalizing variants with
  | nil =>
      cases collected
      refine ⟨fun variant inside => (by cases inside), ?_⟩
      intro list uri declares
      obtain ⟨before, rest, split, -⟩ := declares.placed
      exact absurd split.symm (by simp)
  | cons line rest induction =>
      have later : BandwidthsUnmistaken rest := fun other inside =>
        unmistaken other (List.mem_cons_of_mem line inside)
      -- A line that gives no variant leaves those of the others.
      have passed : ∀ others, collectVariants resolveUri url rest =
          .ok others → (∀ (list : AttributeList) (uri : Text),
            afterTag "#EXT-X-STREAM-INF:" line = some list.render →
              variantUri rest = some uri → False) →
          (∀ variant ∈ others,
            DeclaredIn resolveUri url (line :: rest) variant) ∧
          (∀ list uri, DeclaresVariant (line :: rest) list uri →
            Unmistaken list bandwidthName →
              ∃ variant ∈ others,
                variant.bandwidth = declaredBandwidth list) := by
        intro others found absent
        obtain ⟨sound, complete⟩ := induction later found
        refine ⟨fun variant inside => (sound variant inside).later line, ?_⟩
        intro list uri declares named
        rcases declares.cases_cons with ⟨here, placed⟩ | further
        · exact (absent list uri here placed).elim
        · exact complete list uri further named
      unfold collectVariants at collected
      cases tagged : afterTag "#EXT-X-STREAM-INF:" line with
      | none =>
          simp only [tagged] at collected
          refine passed variants collected ?_
          intro list uri here
          rw [tagged] at here
          cases here
      | some attrs =>
          simp only [tagged] at collected
          cases placed : variantUri rest with
          | none =>
              simp only [placed] at collected
              refine passed variants collected ?_
              intro list uri _ found
              rw [placed] at found
              cases found
          | some uriLine =>
              simp only [placed] at collected
              obtain ⟨resolved, resolves, collected⟩ :=
                bind_eq_ok.mp collected
              obtain ⟨others, found, collected⟩ := bind_eq_ok.mp collected
              cases collected
              obtain ⟨sound, complete⟩ := induction later found
              obtain ⟨list, rendered, clear, finite⟩ :=
                unmistaken line List.mem_cons_self attrs tagged
              have bandwidth := bandwidth_declared clear
              rw [← rendered] at bandwidth
              constructor
              · intro variant inside
                rcases List.mem_cons.mp inside with same | member
                · subst same
                  refine ⟨by rw [bandwidth]; exact finite, list, uriLine,
                    ⟨[], rest, ?_, placed⟩, clear, resolves, bandwidth⟩
                  rw [List.nil_append, afterTag_eq_some tagged, rendered]
                · exact (sound variant member).later line
              · intro other uri declares named
                rcases declares.cases_cons with ⟨here, -⟩ | further
                · rw [tagged] at here
                  cases here
                  exact ⟨_, List.mem_cons_self, bandwidth_declared named⟩
                · obtain ⟨variant, member, same⟩ :=
                    complete other uri further named
                  exact ⟨variant, List.mem_cons_of_mem _ member, same⟩

/-- The number is not above the best one. -/
def AtMost (best number : Number) : Prop :=
  ∀ high low, best = some high → number = some low → low ≤ high

theorem AtMost.refl (number : Number) : AtMost number number :=
  fun _ _ best same => Nat.le_of_eq (Option.some.inj (same.symm.trans best))

theorem AtMost.trans {high middle low : Number} (finite : middle.isSome)
    (above : AtMost high middle) (below : AtMost middle low) :
    AtMost high low := by
  obtain ⟨value, same⟩ := Option.isSome_iff_exists.mp finite
  intro top bottom topSame bottomSame
  exact Nat.le_trans (below value bottom same bottomSame)
    (above top value topSame same)

/-- The better variant is one of both and has the larger bandwidth. -/
theorem betterVariant_largest {best variant : Variant}
    (bestFinite : best.bandwidth.isSome)
    (variantFinite : variant.bandwidth.isSome) :
    (betterVariant best variant).bandwidth.isSome ∧
      AtMost (betterVariant best variant).bandwidth best.bandwidth ∧
        AtMost (betterVariant best variant).bandwidth variant.bandwidth := by
  obtain ⟨left, leftSame⟩ := Option.isSome_iff_exists.mp bestFinite
  obtain ⟨right, rightSame⟩ := Option.isSome_iff_exists.mp variantFinite
  have greater : isGreater variant.bandwidth best.bandwidth =
      decide (left < right) := by
    rw [leftSame, rightSame]
    rfl
  unfold betterVariant
  rw [greater]
  by_cases less : left < right
  · rw [decide_eq_true less, if_pos rfl]
    refine ⟨variantFinite, ?_, AtMost.refl _⟩
    intro high low highSame lowSame
    rw [rightSame] at highSame
    rw [leftSame] at lowSame
    cases highSame
    cases lowSame
    omega
  · rw [decide_eq_false less, if_neg Bool.false_ne_true]
    refine ⟨bestFinite, AtMost.refl _, ?_⟩
    intro high low highSame lowSame
    rw [leftSame] at highSame
    rw [rightSame] at lowSame
    cases highSame
    cases lowSame
    omega

theorem bestVariant_mem (first : Variant) (rest : List Variant) :
    bestVariant first rest ∈ first :: rest := by
  unfold bestVariant
  induction rest generalizing first with
  | nil => exact List.mem_cons_self
  | cons variant rest induction =>
      rw [List.foldl_cons]
      have chosen : betterVariant first variant = variant ∨
          betterVariant first variant = first := by
        unfold betterVariant
        split
        · exact .inl rfl
        · exact .inr rfl
      rcases List.mem_cons.mp (induction (betterVariant first variant)) with
        same | member
      · rw [same]
        rcases chosen with second | first
        · rw [second]
          exact List.mem_cons_of_mem _ List.mem_cons_self
        · rw [first]
          exact List.mem_cons_self
      · exact List.mem_cons_of_mem _ (List.mem_cons_of_mem _ member)

/-- Among finite bandwidths the best one is the largest. -/
theorem bestVariant_largest {first : Variant} {rest : List Variant}
    (finite : ∀ variant ∈ first :: rest, variant.bandwidth.isSome) :
    ∀ variant ∈ first :: rest,
      AtMost (bestVariant first rest).bandwidth variant.bandwidth := by
  unfold bestVariant
  induction rest generalizing first with
  | nil =>
      intro variant inside
      rw [List.mem_singleton.mp inside]
      exact AtMost.refl _
  | cons second rest induction =>
      obtain ⟨winnerFinite, beatsFirst, beatsSecond⟩ := betterVariant_largest
        (finite first List.mem_cons_self)
        (finite second (List.mem_cons_of_mem _ List.mem_cons_self))
      have largest := @induction (betterVariant first second)
        fun variant inside => by
          rcases List.mem_cons.mp inside with same | later
          · exact same ▸ winnerFinite
          · exact finite variant
              (List.mem_cons_of_mem _ (List.mem_cons_of_mem _ later))
      have winner := largest _ List.mem_cons_self
      intro variant inside
      rw [List.foldl_cons]
      rcases List.mem_cons.mp inside with same | further
      · rw [same]
        exact AtMost.trans winnerFinite winner beatsFirst
      · rcases List.mem_cons.mp further with same | later
        · rw [same]
          exact AtMost.trans winnerFinite winner beatsSecond
        · exact largest variant (List.mem_cons_of_mem _ later)

/-- The selection is a variant of the playlist with the largest bandwidth. -/
structure SelectsLargest (resolveUri : Text → Text → Except ParseFailure Text)
    (url : Text) (lines : List Text) (variantUrl : Text) : Prop where
  selected : ∃ list uri, DeclaresVariant lines list uri ∧
    resolveUri url uri = .ok variantUrl ∧
      ∀ other otherUri, DeclaresVariant lines other otherUri →
        Unmistaken other bandwidthName →
          AtMost (declaredBandwidth list) (declaredBandwidth other)

theorem parseHlsMaster_selects {text : Text} {selection : MasterSelection}
    (unmistaken : BandwidthsUnmistaken (splitLines text))
    (parsed : parseHlsMaster resolveUri text url = .ok selection) :
    SelectsLargest resolveUri url (splitLines text) selection.variantUrl := by
  unfold parseHlsMaster at parsed
  obtain ⟨renditions, -, parsed⟩ := bind_eq_ok.mp parsed
  obtain ⟨variants, collected, parsed⟩ := bind_eq_ok.mp parsed
  obtain ⟨sound, complete⟩ := collectVariants_declared unmistaken collected
  cases variants with
  | nil => cases parsed
  | cons first rest =>
      cases parsed
      obtain ⟨list, uri, declares, -, resolves, bandwidth⟩ :=
        (sound _ (bestVariant_mem first rest)).declared
      refine ⟨list, uri, declares, resolves, ?_⟩
      intro other otherUri present named
      obtain ⟨variant, member, same⟩ := complete other otherUri present named
      rw [← bandwidth, ← same]
      exact bestVariant_largest (fun variant inside =>
        (sound variant inside).finite) variant member

/-- A key has the method, URI and vector that its list declares. -/
theorem onKey_declared {list : AttributeList}
    (method : Unmistaken list methodName) (uri : Unmistaken list uriName)
    (iv : Unmistaken list ivName) (state : ScanState) :
    onKey resolveUri url state list.render =
      declaredKey resolveUri url state list := by
  have methodRead : attr list.render "METHOD" = list.declared methodName :=
    (attr_eq_lookup_iff list methodName).mpr method
  have uriRead : attr list.render "URI" = list.declared uriName :=
    (attr_eq_lookup_iff list uriName).mpr uri
  have ivRead : attr list.render "IV" = list.declared ivName :=
    (attr_eq_lookup_iff list ivName).mpr iv
  have keyUri : keyUriAttr list.render = declaredKeyUri list := by
    unfold keyUriAttr
    simp only [uriRead]
    rfl
  unfold onKey declaredKey
  simp only [methodRead, keyUri, ivRead]

/-- A list is read right exactly where the name is unmistaken.  Then the best
variant has the largest bandwidth, and a key is the one declared. -/
theorem attr_reads_iff (list : AttributeList)
    (resolveUri : Text → Text → Except ParseFailure Text) (text url : Text) :
    (∀ name : AttrName,
      attr list.render name.text = list.declared name ↔
        Unmistaken list name) ∧
    (∀ selection, parseHlsMaster resolveUri text url = .ok selection →
      BandwidthsUnmistaken (splitLines text) →
        SelectsLargest resolveUri url (splitLines text)
          selection.variantUrl) ∧
    (Unmistaken list methodName → Unmistaken list uriName →
      Unmistaken list ivName → ∀ state,
        onKey resolveUri url state list.render =
          declaredKey resolveUri url state list) :=
  ⟨attr_eq_lookup_iff list,
    fun _ parsed unmistaken => parseHlsMaster_selects unmistaken parsed,
    fun method uri iv state => onKey_declared method uri iv state⟩

/-- `AVERAGE-BANDWIDTH=5,BANDWIDTH=20` -/
def averageFirst : AttributeList where
  attributes :=
    [{ name :=
        { text := "AVERAGE-BANDWIDTH"
          filled := by decide
          letters := List.all_eq_true.mp (by decide) }
       value := .plain "5".toList (List.forall_mem_singleton.mpr (by decide)) },
     { name := bandwidthName
       value := .plain "20".toList (List.forall_mem_cons.mpr
         ⟨by decide, List.forall_mem_singleton.mpr (by decide)⟩) }]
  distinct := by decide

/-- The average in front is read as the bandwidth. -/
theorem averageFirst_misread :
    attr averageFirst.render bandwidthName.text = some "5".toList ∧
      averageFirst.declared bandwidthName = some "20".toList := by
  constructor <;> decide

end Motrix.Media
