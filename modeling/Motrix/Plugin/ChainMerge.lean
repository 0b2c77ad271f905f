import Motrix.Lib.LastWrite

/-!
# Merging the patches of a hook chain

The options of a new HTTP download after a chain of plugins: what the user set
wins, then the patches in the order of their role bands.  The lower-case
mapping and the collation of the host language are parameters.
-/

namespace Motrix.Plugin

open Motrix.Lib

inductive RoleBand where
  | preResolve
  | resolve
  | enrich
  | postProcess
  | audit
  deriving DecidableEq, Repr

def bandIndex : RoleBand → Nat
  | .preResolve => 0
  | .resolve => 1
  | .enrich => 2
  | .postProcess => 3
  | .audit => 4

structure Header where
  name : String
  value : String
  deriving DecidableEq, Repr

structure StagedHttpPatch where
  uris : Option (List String) := none
  filename : Option String := none
  connections : Option Nat := none
  headers : Option (List Header) := none
  proxy : Option String := none
  deriving DecidableEq, Repr

structure ChainEntry where
  pluginId : String
  role : RoleBand
  patch : StagedHttpPatch
  deriving DecidableEq, Repr

structure HttpInput where
  uris : List String
  filename : Option String := none
  connections : Option Nat := none
  headers : List Header
  proxy : Option String := none
  deriving DecidableEq, Repr

structure Contributors where
  headers : List String
  proxy : Option String := none
  uris : Option String := none
  deriving DecidableEq, Repr

structure MergedHttp where
  uris : List String
  filename : Option String
  connections : Option Nat
  headers : List Header
  proxy : Option String
  contributors : Contributors
  deriving DecidableEq, Repr

/-- What the host language knows of texts. -/
structure Locale where
  toLowerCase : String → String
  localeCompare : String → String → Ordering

/-- An empty text counts as absent. -/
def nonEmpty (text : Option String) : Option String :=
  text.filter (!·.isEmpty)

def nonZero (number : Option Nat) : Option Nat :=
  number.filter (· != 0)

variable (locale : Locale)

def compareEntries (left right : ChainEntry) : Ordering :=
  (compare (bandIndex left.role) (bandIndex right.role)).then
    (locale.localeCompare left.pluginId right.pluginId)

def inBandOrder (plugins : List ChainEntry) : List ChainEntry :=
  plugins.mergeSort fun left right => (compareEntries locale left right).isLE

/-- The header takes the place of the one it shadows, or the end. -/
def putHeader (header : Header) (headers : List Header) : List Header :=
  let lc := locale.toLowerCase header.name
  match headers.findIdx? fun other => locale.toLowerCase other.name == lc with
  | some index => headers.set index header
  | none => headers ++ [header]

/-- The variables of the merge loop. -/
structure MergeState where
  uris : List String
  filename : Option String
  connections : Option Nat
  headers : List Header
  proxy : Option String
  headerContributors : List String
  lastUrisFrom : Option String
  proxyContributor : Option String

def applyHeader (userNamesLC : List String) (pluginId : String)
    (state : MergeState) (header : Header) : MergeState :=
  if userNamesLC.contains (locale.toLowerCase header.name) then
    state
  else
    { state with
      headers := putHeader locale header state.headers
      headerContributors :=
        if state.headerContributors.contains pluginId then
          state.headerContributors
        else
          state.headerContributors ++ [pluginId] }

def applyPatch (userInput : HttpInput) (state : MergeState)
    (entry : ChainEntry) : MergeState :=
  let userNamesLC := userInput.headers.map (locale.toLowerCase ·.name)
  let patched :=
    { state with
      uris := entry.patch.uris.getD state.uris
      lastUrisFrom :=
        if entry.patch.uris.isSome then some entry.pluginId
        else state.lastUrisFrom
      filename := (nonEmpty entry.patch.filename).or state.filename
      connections := (nonZero entry.patch.connections).or state.connections }
  let headed := (entry.patch.headers.getD []).foldl
    (applyHeader locale userNamesLC entry.pluginId) patched
  if (nonEmpty entry.patch.proxy).isSome &&
      (nonEmpty userInput.proxy).isNone then
    { headed with
      proxy := entry.patch.proxy
      proxyContributor := some entry.pluginId }
  else
    headed

def mergeStart (userInput : HttpInput) : MergeState where
  uris := userInput.uris
  filename := userInput.filename
  connections := userInput.connections
  headers := userInput.headers
  proxy := userInput.proxy
  headerContributors := []
  lastUrisFrom := none
  proxyContributor := none

def mergeChain (userInput : HttpInput) (plugins : List ChainEntry) :
    MergedHttp :=
  let merged := (inBandOrder locale plugins).foldl
    (applyPatch locale userInput) (mergeStart userInput)
  { uris := merged.uris
    filename := merged.filename
    connections := merged.connections
    headers := merged.headers
    proxy := merged.proxy
    contributors :=
      { headers := merged.headerContributors
        proxy := merged.proxyContributor
        uris := merged.lastUrisFrom } }

end Motrix.Plugin

/-!
# What a merge of patches keeps

User settings come through a merge unchanged, every other setting is the last
one in band order, and the order in which the patches are given is forgotten.
-/

namespace Motrix.Plugin

open Motrix.Lib

variable (locale : Locale)

/-! ## The order of the bands -/

theorem compareEntries_swap [Std.TransCmp locale.localeCompare]
    (left right : ChainEntry) :
    compareEntries locale left right =
      (compareEntries locale right left).swap := by
  unfold compareEntries
  rw [Ordering.swap_then, ← Std.OrientedCmp.eq_swap, ← Std.OrientedCmp.eq_swap]

theorem compareEntries_bands {left right : ChainEntry}
    (ordered : (compareEntries locale left right).isLE) :
    bandIndex left.role ≤ bandIndex right.role := by
  unfold compareEntries at ordered
  rcases Nat.lt_trichotomy (bandIndex left.role) (bandIndex right.role) with
    less | same | greater
  · exact Nat.le_of_lt less
  · exact Nat.le_of_eq same
  · rw [Nat.compare_eq_gt.mpr greater] at ordered
    cases ordered

theorem compareEntries_trans [Std.TransCmp locale.localeCompare]
    {first second third : ChainEntry}
    (left : (compareEntries locale first second).isLE)
    (right : (compareEntries locale second third).isLE) :
    (compareEntries locale first third).isLE := by
  have leftBands := compareEntries_bands locale left
  have rightBands := compareEntries_bands locale right
  rcases Nat.lt_or_eq_of_le (Nat.le_trans leftBands rightBands) with
    less | same
  · unfold compareEntries
    rw [Nat.compare_eq_lt.mpr less]
    rfl
  · have sameLeft : bandIndex first.role = bandIndex second.role := by omega
    have sameRight : bandIndex second.role = bandIndex third.role := by omega
    unfold compareEntries at left right ⊢
    rw [Nat.compare_eq_eq.mpr sameLeft] at left
    rw [Nat.compare_eq_eq.mpr sameRight] at right
    rw [Nat.compare_eq_eq.mpr same]
    have locales : (locale.localeCompare first.pluginId third.pluginId).isLE :=
      Std.TransCmp.isLE_trans left right
    exact locales

theorem inBandOrder_perm (plugins : List ChainEntry) :
    (inBandOrder locale plugins).Perm plugins :=
  List.mergeSort_perm _ _

theorem inBandOrder_pairwise [Std.TransCmp locale.localeCompare]
    (plugins : List ChainEntry) :
    (inBandOrder locale plugins).Pairwise fun left right =>
      (compareEntries locale left right).isLE := by
  apply List.pairwise_mergeSort
  · intro first second third left right
    exact compareEntries_trans locale left right
  · intro left right
    rw [compareEntries_swap locale right left]
    cases compareEntries locale left right with
    | lt => rfl
    | eq => rfl
    | gt => rfl

/-- No two of the entries are equal in the order. -/
def Separated (plugins : List ChainEntry) : Prop :=
  plugins.Pairwise fun left right => compareEntries locale left right ≠ .eq

theorem compareEntries_isLE_antisymm [Std.TransCmp locale.localeCompare]
    {left right : ChainEntry}
    (forward : (compareEntries locale left right).isLE)
    (backward : (compareEntries locale right left).isLE) :
    compareEntries locale left right = .eq := by
  rw [compareEntries_swap locale right left] at backward
  cases outcome : compareEntries locale left right with
  | lt =>
      rw [outcome] at backward
      cases backward
  | eq => rfl
  | gt =>
      rw [outcome] at forward
      cases forward

theorem Separated.eq_of_compare [Std.TransCmp locale.localeCompare]
    {plugins : List ChainEntry} (separated : Separated locale plugins)
    {left right : ChainEntry} (leftMember : left ∈ plugins)
    (rightMember : right ∈ plugins)
    (same : compareEntries locale left right = .eq) : left = right := by
  induction plugins with
  | nil => cases leftMember
  | cons entry plugins induction =>
      have parts := List.pairwise_cons.mp separated
      rcases List.mem_cons.mp leftMember with rfl | leftLater
      · rcases List.mem_cons.mp rightMember with rfl | rightLater
        · rfl
        · exact absurd same (parts.1 right rightLater)
      · rcases List.mem_cons.mp rightMember with rfl | rightLater
        · rw [compareEntries_swap, Ordering.swap_eq_eq] at same
          exact absurd same (parts.1 left leftLater)
        · exact induction parts.2 leftLater rightLater

theorem inBandOrder_congr [Std.TransCmp locale.localeCompare]
    {plugins others : List ChainEntry} (separated : Separated locale plugins)
    (permuted : plugins.Perm others) :
    inBandOrder locale others = inBandOrder locale plugins := by
  have sorted : (inBandOrder locale others).Perm (inBandOrder locale plugins) :=
    ((inBandOrder_perm locale others).trans permuted.symm).trans
      (inBandOrder_perm locale plugins).symm
  refine List.Perm.eq_of_pairwise ?_ (inBandOrder_pairwise locale others)
    (inBandOrder_pairwise locale plugins) sorted
  intro left right leftMember rightMember forward backward
  have leftPlugin : left ∈ plugins :=
    permuted.symm.subset ((inBandOrder_perm locale others).subset leftMember)
  have rightPlugin : right ∈ plugins :=
    (inBandOrder_perm locale plugins).subset rightMember
  exact separated.eq_of_compare locale leftPlugin rightPlugin
    (compareEntries_isLE_antisymm locale forward backward)

/-! ## Headers -/

/-- The headers of one name. -/
def headersNamed (lc : String) (headers : List Header) : List Header :=
  headers.filter fun header => locale.toLowerCase header.name == lc

/-- The last of the headers of one name. -/
def lastHeader (lc : String) (headers : List Header) : Option Header :=
  lastWrite
    (fun header =>
      if locale.toLowerCase header.name == lc then some header else none)
    headers

theorem putHeader_nil (header : Header) :
    putHeader locale header [] = [header] :=
  rfl

theorem putHeader_cons (header other : Header) (headers : List Header) :
    putHeader locale header (other :: headers) =
      if locale.toLowerCase other.name == locale.toLowerCase header.name then
        header :: headers
      else
        other :: putHeader locale header headers := by
  simp only [putHeader, List.findIdx?_cons]
  by_cases same :
      locale.toLowerCase other.name == locale.toLowerCase header.name
  · rw [if_pos same, if_pos same]
    rfl
  · rw [if_neg same, if_neg same]
    cases headers.findIdx? fun other =>
        locale.toLowerCase other.name == locale.toLowerCase header.name with
    | none => rfl
    | some index => rfl

/-- The user's headers stay in front. -/
theorem putHeader_append {header : Header} {user : List Header}
    (absent : locale.toLowerCase header.name ∉
      user.map (locale.toLowerCase ·.name)) (headers : List Header) :
    putHeader locale header (user ++ headers) =
      user ++ putHeader locale header headers := by
  induction user with
  | nil => rfl
  | cons other user induction =>
      have parts := List.ne_and_not_mem_of_not_mem_cons absent
      have differs : ¬ (locale.toLowerCase other.name ==
          locale.toLowerCase header.name) = true := by
        intro same
        exact parts.1 (beq_iff_eq.mp same).symm
      rw [List.cons_append, putHeader_cons, if_neg differs,
        induction parts.2, List.cons_append]

theorem headersNamed_putHeader_other {header : Header} {lc : String}
    (differs : lc ≠ locale.toLowerCase header.name) (headers : List Header) :
    headersNamed locale lc (putHeader locale header headers) =
      headersNamed locale lc headers := by
  have absent : ¬ (locale.toLowerCase header.name == lc) = true := by
    intro same
    exact differs (beq_iff_eq.mp same).symm
  unfold headersNamed
  induction headers with
  | nil =>
      rw [putHeader_nil, List.filter_cons, if_neg absent]
  | cons other headers induction =>
      rw [putHeader_cons]
      by_cases same :
          locale.toLowerCase other.name == locale.toLowerCase header.name
      · have otherAbsent : ¬ (locale.toLowerCase other.name == lc) = true := by
          rw [beq_iff_eq.mp same]
          exact absent
        rw [if_pos same, List.filter_cons, if_neg absent, List.filter_cons,
          if_neg otherAbsent]
      · rw [if_neg same, List.filter_cons, List.filter_cons, induction]

theorem headersNamed_putHeader_self {header : Header} {headers : List Header}
    (single : (headersNamed locale (locale.toLowerCase header.name)
      headers).length ≤ 1) :
    headersNamed locale (locale.toLowerCase header.name)
      (putHeader locale header headers) = [header] := by
  have present : (locale.toLowerCase header.name ==
      locale.toLowerCase header.name) = true :=
    beq_self_eq_true _
  unfold headersNamed at single ⊢
  induction headers with
  | nil =>
      rw [putHeader_nil, List.filter_cons, if_pos present]
      rfl
  | cons other headers induction =>
      rw [putHeader_cons]
      by_cases same :
          locale.toLowerCase other.name == locale.toLowerCase header.name
      · rw [List.filter_cons, if_pos same, List.length_cons] at single
        have none := List.eq_nil_of_length_eq_zero (Nat.le_zero.mp
          (Nat.le_of_succ_le_succ single))
        rw [if_pos same, List.filter_cons, if_pos present, none]
      · rw [List.filter_cons, if_neg same] at single
        rw [if_neg same, List.filter_cons, if_neg same, induction single]

/-- What one header of a patch does to the headers. -/
def writeHeader (userNamesLC : List String) (headers : List Header)
    (header : Header) : List Header :=
  if userNamesLC.contains (locale.toLowerCase header.name) then
    headers
  else
    putHeader locale header headers

theorem headers_applyHeader (userNamesLC : List String) (pluginId : String)
    (state : MergeState) (header : Header) :
    (applyHeader locale userNamesLC pluginId state header).headers =
      writeHeader locale userNamesLC state.headers header := by
  unfold applyHeader writeHeader
  by_cases userSet : userNamesLC.contains (locale.toLowerCase header.name)
  · rw [if_pos userSet, if_pos userSet]
  · rw [if_neg userSet, if_neg userSet]

theorem headers_foldl_applyHeader (userNamesLC : List String)
    (pluginId : String) (headers : List Header) (state : MergeState) :
    (headers.foldl (applyHeader locale userNamesLC pluginId) state).headers =
      headers.foldl (writeHeader locale userNamesLC) state.headers := by
  induction headers generalizing state with
  | nil => rfl
  | cons header headers induction =>
      rw [List.foldl_cons, List.foldl_cons, induction, headers_applyHeader]

theorem headers_applyPatch (userInput : HttpInput) (state : MergeState)
    (entry : ChainEntry) :
    (applyPatch locale userInput state entry).headers =
      (entry.patch.headers.getD []).foldl
        (writeHeader locale (userInput.headers.map (locale.toLowerCase ·.name)))
        state.headers := by
  simp only [applyPatch, apply_ite MergeState.headers, ite_self,
    headers_foldl_applyHeader]

/-- The headers of all patches, in the order in which they are written. -/
def patchHeaders (entries : List ChainEntry) : List Header :=
  entries.flatMap fun entry => entry.patch.headers.getD []

theorem headers_foldl_applyPatch (userInput : HttpInput)
    (entries : List ChainEntry) (state : MergeState) :
    (entries.foldl (applyPatch locale userInput) state).headers =
      (patchHeaders entries).foldl
        (writeHeader locale (userInput.headers.map (locale.toLowerCase ·.name)))
        state.headers := by
  induction entries generalizing state with
  | nil => rfl
  | cons entry entries induction =>
      have split : patchHeaders (entry :: entries) =
          entry.patch.headers.getD [] ++ patchHeaders entries := rfl
      rw [List.foldl_cons, induction, headers_applyPatch, split,
        List.foldl_append]

/-- What a merge makes of the headers: the user's own, then for each other name
the last header written. -/
structure HeadersMerged (user written merged : List Header) : Prop where
  userFirst : user.IsPrefix merged
  userNames : ∀ lc, lc ∈ user.map (locale.toLowerCase ·.name) →
    headersNamed locale lc merged = headersNamed locale lc user
  otherNames : ∀ lc, lc ∉ user.map (locale.toLowerCase ·.name) →
    headersNamed locale lc merged = (lastHeader locale lc written).toList

theorem headersNamed_absent {lc : String} {headers : List Header}
    (absent : lc ∉ headers.map (locale.toLowerCase ·.name)) :
    headersNamed locale lc headers = [] := by
  apply List.filter_eq_nil_iff.mpr
  intro header member same
  apply absent
  rw [← beq_iff_eq.mp same]
  exact List.mem_map_of_mem member

theorem headersMerged_start (user : List Header) :
    HeadersMerged locale user [] user where
  userFirst := List.prefix_rfl
  userNames _ _ := rfl
  otherNames _ absent := headersNamed_absent locale absent

theorem lastHeader_concat (lc : String) (header : Header)
    (written : List Header) :
    lastHeader locale lc (written ++ [header]) =
      if locale.toLowerCase header.name == lc then some header
      else lastHeader locale lc written := by
  unfold lastHeader
  rw [lastWrite_concat]
  by_cases same : locale.toLowerCase header.name == lc
  · rw [if_pos same, if_pos same]
    rfl
  · rw [if_neg same, if_neg same]
    rfl

namespace HeadersMerged

variable {locale}
variable {user written merged : List Header}

/-- A header of the user's names is passed by. -/
theorem pass (headers : HeadersMerged locale user written merged)
    {header : Header} (userSet : locale.toLowerCase header.name ∈
      user.map (locale.toLowerCase ·.name)) :
    HeadersMerged locale user (written ++ [header]) merged where
  userFirst := headers.userFirst
  userNames := headers.userNames
  otherNames lc absent := by
    have differs : ¬ (locale.toLowerCase header.name == lc) = true := by
      intro same
      rw [← beq_iff_eq.mp same] at absent
      exact absent userSet
    rw [lastHeader_concat, if_neg differs]
    exact headers.otherNames lc absent

/-- A header of another name is put in. -/
theorem put (headers : HeadersMerged locale user written merged)
    {header : Header} (other : locale.toLowerCase header.name ∉
      user.map (locale.toLowerCase ·.name)) :
    HeadersMerged locale user (written ++ [header])
      (putHeader locale header merged) where
  userFirst := by
    obtain ⟨extra, rfl⟩ := headers.userFirst
    rw [putHeader_append locale other]
    exact List.prefix_append _ _
  userNames lc present := by
    have differs : lc ≠ locale.toLowerCase header.name := by
      intro same
      rw [same] at present
      exact other present
    rw [headersNamed_putHeader_other locale differs]
    exact headers.userNames lc present
  otherNames lc absent := by
    rw [lastHeader_concat]
    by_cases same : locale.toLowerCase header.name == lc
    · have name := beq_iff_eq.mp same
      have single : (headersNamed locale (locale.toLowerCase header.name)
          merged).length ≤ 1 := by
        rw [headers.otherNames _ other]
        exact Option.length_toList_le
      rw [if_pos same, ← name, headersNamed_putHeader_self locale single]
      rfl
    · have differs : lc ≠ locale.toLowerCase header.name := by
        intro equal
        exact same (beq_iff_eq.mpr equal.symm)
      rw [if_neg same, headersNamed_putHeader_other locale differs]
      exact headers.otherNames lc absent

theorem write (headers : HeadersMerged locale user written merged)
    (header : Header) :
    HeadersMerged locale user (written ++ [header])
      (writeHeader locale (user.map (locale.toLowerCase ·.name)) merged
        header) := by
  unfold writeHeader
  by_cases userSet : (user.map (locale.toLowerCase ·.name)).contains
      (locale.toLowerCase header.name)
  · rw [if_pos userSet]
    exact headers.pass (List.contains_iff_mem.mp userSet)
  · rw [if_neg userSet]
    apply headers.put
    intro member
    exact userSet (List.contains_iff_mem.mpr member)

theorem writeAll (headers : HeadersMerged locale user written merged)
    (later : List Header) :
    HeadersMerged locale user (written ++ later)
      (later.foldl
        (writeHeader locale (user.map (locale.toLowerCase ·.name)))
        merged) := by
  induction later generalizing written merged with
  | nil =>
      rw [List.append_nil]
      exact headers
  | cons header later induction =>
      have rest := induction (headers.write header)
      rw [List.append_assoc] at rest
      exact rest

end HeadersMerged

theorem mergeChain_headers (userInput : HttpInput)
    (plugins : List ChainEntry) :
    HeadersMerged locale userInput.headers
      (patchHeaders (inBandOrder locale plugins))
      (mergeChain locale userInput plugins).headers := by
  have merged : HeadersMerged locale userInput.headers
      (patchHeaders (inBandOrder locale plugins))
      ((inBandOrder locale plugins).foldl (applyPatch locale userInput)
        (mergeStart userInput)).headers := by
    rw [headers_foldl_applyPatch]
    exact (headersMerged_start locale userInput.headers).writeAll _
  exact merged

/-! ## The other fields -/

/-- Putting headers in leaves the fields beside them alone. -/
theorem foldl_applyHeader_field {Value : Type} (field : MergeState → Value)
    (beside : ∀ state headers headerContributors,
      field { state with headers, headerContributors } = field state)
    (userNamesLC : List String) (pluginId : String) (headers : List Header)
    (state : MergeState) :
    field (headers.foldl (applyHeader locale userNamesLC pluginId) state) =
      field state := by
  apply foldl_constant field
  intro state header
  unfold applyHeader
  by_cases userSet : userNamesLC.contains (locale.toLowerCase header.name)
  · rw [if_pos userSet]
  · rw [if_neg userSet]
    exact beside state _ _

theorem uris_applyPatch (userInput : HttpInput) (state : MergeState)
    (entry : ChainEntry) :
    (applyPatch locale userInput state entry).uris =
      entry.patch.uris.getD state.uris := by
  simp only [applyPatch, apply_ite MergeState.uris, ite_self]
  rw [foldl_applyHeader_field locale MergeState.uris (fun _ _ _ => rfl)]

theorem filename_applyPatch (userInput : HttpInput) (state : MergeState)
    (entry : ChainEntry) :
    (applyPatch locale userInput state entry).filename =
      (nonEmpty entry.patch.filename).or state.filename := by
  simp only [applyPatch, apply_ite MergeState.filename, ite_self]
  rw [foldl_applyHeader_field locale MergeState.filename (fun _ _ _ => rfl)]

theorem connections_applyPatch (userInput : HttpInput) (state : MergeState)
    (entry : ChainEntry) :
    (applyPatch locale userInput state entry).connections =
      (nonZero entry.patch.connections).or state.connections := by
  simp only [applyPatch, apply_ite MergeState.connections, ite_self]
  rw [foldl_applyHeader_field locale MergeState.connections (fun _ _ _ => rfl)]

/-- The proxy a patch may set: none beside one of the user. -/
def offeredProxy (userInput : HttpInput) (entry : ChainEntry) : Option String :=
  if (nonEmpty userInput.proxy).isNone then nonEmpty entry.patch.proxy else none

theorem proxy_applyPatch (userInput : HttpInput) (state : MergeState)
    (entry : ChainEntry) :
    (applyPatch locale userInput state entry).proxy =
      (offeredProxy userInput entry).or state.proxy := by
  simp only [applyPatch, apply_ite MergeState.proxy, offeredProxy]
  rw [foldl_applyHeader_field locale MergeState.proxy (fun _ _ _ => rfl)]
  cases userSet : nonEmpty userInput.proxy with
  | some proxy =>
      rw [Option.isNone_some, Bool.and_false]
      rfl
  | none =>
      cases offered : nonEmpty entry.patch.proxy with
      | none => rfl
      | some proxy =>
          have present := Option.eq_some_of_filter_eq_some offered
          rw [present]
          rfl

/-- What a merge makes of the fields beside the headers. -/
structure FieldsMerged (userInput : HttpInput) (ordered : List ChainEntry)
    (merged : MergedHttp) : Prop where
  uris : merged.uris = (lastWrite (·.patch.uris) ordered).getD userInput.uris
  filename : merged.filename =
    (lastWrite (nonEmpty ·.patch.filename) ordered).or userInput.filename
  connections : merged.connections =
    (lastWrite (nonZero ·.patch.connections) ordered).or userInput.connections
  proxy : merged.proxy =
    if (nonEmpty userInput.proxy).isSome then
      userInput.proxy
    else
      (lastWrite (nonEmpty ·.patch.proxy) ordered).or userInput.proxy

theorem lastWrite_offeredProxy (userInput : HttpInput)
    (entries : List ChainEntry) :
    lastWrite (offeredProxy userInput) entries =
      if (nonEmpty userInput.proxy).isSome then none
      else lastWrite (nonEmpty ·.patch.proxy) entries := by
  induction entries with
  | nil =>
      rw [lastWrite_nil, lastWrite_nil, ite_self]
  | cons entry entries induction =>
      rw [lastWrite_cons, lastWrite_cons, induction, offeredProxy]
      cases nonEmpty userInput.proxy with
      | none => rfl
      | some proxy => rfl

theorem mergeChain_fields (userInput : HttpInput)
    (plugins : List ChainEntry) :
    FieldsMerged userInput (inBandOrder locale plugins)
      (mergeChain locale userInput plugins) where
  uris := foldl_lastWrite (uris_applyPatch locale userInput) _ _
  filename := foldl_lastWrite_or (filename_applyPatch locale userInput) _ _
  connections :=
    foldl_lastWrite_or (connections_applyPatch locale userInput) _ _
  proxy := by
    have run := foldl_lastWrite_or (proxy_applyPatch locale userInput)
      (inBandOrder locale plugins) (mergeStart userInput)
    rw [lastWrite_offeredProxy] at run
    cases userSet : (nonEmpty userInput.proxy).isSome with
    | true =>
        rw [userSet] at run
        exact run
    | false =>
        rw [userSet] at run
        exact run

/-! ## The merge as a whole -/

/-- The merge goes through the patches band by band. -/
structure BandOrdered (plugins ordered : List ChainEntry) : Prop where
  permutes : ordered.Perm plugins
  byBand : ordered.Pairwise fun left right =>
    bandIndex left.role ≤ bandIndex right.role

theorem inBandOrder_ordered [Std.TransCmp locale.localeCompare]
    (plugins : List ChainEntry) :
    BandOrdered plugins (inBandOrder locale plugins) where
  permutes := inBandOrder_perm locale plugins
  byBand := (inBandOrder_pairwise locale plugins).imp
    (compareEntries_bands locale)

theorem mergeChain_perm [Std.TransCmp locale.localeCompare]
    (userInput : HttpInput) {plugins others : List ChainEntry}
    (separated : Separated locale plugins) (permuted : plugins.Perm others) :
    mergeChain locale userInput others =
      mergeChain locale userInput plugins := by
  unfold mergeChain
  rw [inBandOrder_congr locale separated permuted]

theorem mergeChain_contract [Std.TransCmp locale.localeCompare]
    (userInput : HttpInput) (plugins : List ChainEntry) :
    BandOrdered plugins (inBandOrder locale plugins) ∧
      HeadersMerged locale userInput.headers
        (patchHeaders (inBandOrder locale plugins))
        (mergeChain locale userInput plugins).headers ∧
      FieldsMerged userInput (inBandOrder locale plugins)
        (mergeChain locale userInput plugins) ∧
      (Separated locale plugins → ∀ others, plugins.Perm others →
        mergeChain locale userInput others =
          mergeChain locale userInput plugins) := by
  refine ⟨inBandOrder_ordered locale plugins,
    mergeChain_headers locale userInput plugins,
    mergeChain_fields locale userInput plugins, ?_⟩
  intro separated others permuted
  exact mergeChain_perm locale userInput separated permuted

/-- A locale for plain names: code points order them. -/
def plainLocale : Locale where
  toLowerCase := String.toLower
  localeCompare := compare

def sampleUser : HttpInput where
  uris := ["http://host/file"]
  headers := [⟨"Cookie", "user"⟩]

def samplePlugins : List ChainEntry :=
  [{ pluginId := "login"
     role := .resolve
     patch := { headers := some [⟨"Referer", "login"⟩] } },
   { pluginId := "mirror"
     role := .enrich
     patch :=
      { headers := some [⟨"REFERER", "mirror"⟩, ⟨"cookie", "mirror"⟩]
        proxy := some "http://proxy" } }]

theorem mergeChain_sample :
    headersNamed plainLocale "referer"
        (mergeChain plainLocale sampleUser samplePlugins).headers =
        [⟨"REFERER", "mirror"⟩] ∧
      mergeChain plainLocale sampleUser samplePlugins.reverse =
        mergeChain plainLocale sampleUser samplePlugins := by
  have ordered : Std.TransCmp plainLocale.localeCompare :=
    inferInstanceAs (Std.TransCmp (compare : String → String → Ordering))
  have separated : Separated plainLocale samplePlugins := by
    unfold Separated
    decide
  have sorted : inBandOrder plainLocale samplePlugins = samplePlugins := by
    apply List.mergeSort_of_pairwise
    decide
  obtain ⟨_, headers, _, anyOrder⟩ :=
    mergeChain_contract plainLocale sampleUser samplePlugins
  constructor
  · have other := headers.otherNames "referer" (by decide +kernel)
    rw [other, sorted]
    decide +kernel
  · exact anyOrder separated _ (List.reverse_perm samplePlugins).symm

/-- The user's own headers are kept even where they share a name. -/
theorem mergeChain_repeated_name :
    ¬ ∀ userInput plugins lc,
      (headersNamed plainLocale lc
        (mergeChain plainLocale userInput plugins).headers).length ≤ 1 := by
  intro single
  have repeated := single
    { uris := ["http://host/file"]
      headers := [⟨"Cookie", "first"⟩, ⟨"cookie", "second"⟩] } [] "cookie"
  revert repeated
  decide +kernel

end Motrix.Plugin
