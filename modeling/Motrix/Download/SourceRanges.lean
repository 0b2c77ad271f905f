import Motrix.Download.SourceText

/-!
# Ranges of diagnostics

What a diagnostic marks lies inside the analysed text.
-/

namespace Motrix.DownloadSource

open List Lib Lib.AsciiUnits

def SourceDiagnostic.Inside (diagnostic : SourceDiagnostic) (raw : Text) :
    Prop :=
  diagnostic.start ≤ diagnostic.stop ∧ diagnostic.stop ≤ raw.length

def DownloadSourceAnalysis.Inside (raw : Text) : DownloadSourceAnalysis → Prop
  | accepted .. => True
  | needsCorrection diagnostic _ => diagnostic.Inside raw
  | rejected diagnostic => diagnostic.Inside raw

variable {raw scheme : Text} {index place start stop : Nat}

theorem failure_inside (order : start ≤ stop) (bound : stop ≤ raw.length)
    (reason : SourceReason) (corrections : List SourceCorrection) :
    (failure reason start stop corrections).Inside raw := by
  unfold failure
  dsimp only
  split <;> exact ⟨order, bound⟩

theorem invalidUnit_lt {reason : SourceReason}
    (found : invalidUnit index raw = some (reason, place)) :
    place < index + raw.length := by
  fun_induction invalidUnit index raw <;> simp_all
  all_goals omega

theorem badPercent_lt (found : badPercent index raw = some place) :
    place < index + raw.length := by
  fun_induction badPercent index raw <;> simp_all
  all_goals omega

theorem length_takeWhile_lt {keeps : UInt16 → Bool}
    (stops : raw.any (!keeps ·) = true) :
    (raw.takeWhile keeps).length < raw.length := by
  refine ( takeWhile_prefix _).length_le.lt_of_ne fun same => ?_
  have all := takeWhile_eq_self_iff.mp (( takeWhile_prefix _).eq_of_length same)
  obtain ⟨unit, member, stop⟩ := any_eq_true.mp stops
  simp [all unit member] at stop

theorem analyzeParts_inside (named : schemeOf raw = some scheme)
    {parts : Parts} (split : urlParts raw = some parts)
    (protocol : SourceProtocol) (url : Url) :
    (analyzeParts raw scheme protocol url parts).Inside raw := by
  obtain ⟨parted, delimited⟩ := written_of_urlParts named split
  have front := structuralPart_written (schemeOf_valid named).1 delimited
  rw [← parted] at front
  have lengths := congrArg length parted
  rw [written_front, length_append] at lengths
  have start : (DownloadSource.front scheme parts).length =
      scheme.length + 3 + parts.authority.length + parts.path.length := by
    simp [DownloadSource.front]
    omega
  unfold analyzeParts reject
  generalize encodeUnicode _ = requestPath
  dsimp only
  split_ifs with mark user space
  · have found : (raw.takeWhile (· ≠ 0x3f)).length < raw.length :=
      length_takeWhile_lt (by simp [parted, written, Parts.behind, mark])
    exact failure_inside (by omega) (by omega) _ _
  · exact failure_inside (by omega) (by omega) _ _
  · have found : (raw.takeWhile (!isUnescaped ·)).length < raw.length :=
      length_takeWhile_lt (by simpa using space)
    exact failure_inside (by omega) (by omega) _ _
  · rw [front]
    exact failure_inside (by omega) (by omega) _ _
  · exact failure_inside (by omega) (by omega) _ _
  · trivial

theorem analyzeDownloadSource_inside (parseUrl : Text → Option Url)
    (parseMagnet : Text → Option Bool) (raw : Text)
    (protocols : List SourceProtocol) :
    (analyzeDownloadSource parseUrl parseMagnet raw protocols).Inside raw := by
  unfold analyzeDownloadSource reject
  split
  · exact failure_inside (by omega) (by omega) _ _
  split
  · rename_i found
    have place := invalidUnit_lt found
    exact failure_inside (by omega) (by omega) _ _
  split
  · exact failure_inside (by omega) (by omega) _ _
  rename_i scheme named
  obtain ⟨valid, rest, parted⟩ := schemeOf_valid named
  have lengths := congrArg length parted
  rw [length_append, length_cons] at lengths
  have front : scheme.length + 1 ≤ (structuralPart raw).length := by
    have kept : ∀ unit ∈ scheme ++ [0x3a], (!endsPath unit) = true := by
      intro unit member
      rcases mem_append.mp member with inside | colon
      · simp [endsPath_scheme (valid.units unit inside)]
      · rw [mem_singleton.mp colon]
        rfl
    rw [structuralPart, parted, append_cons, takeWhile_append_of_pos kept]
    simp
  have bound : (structuralPart raw).length ≤ raw.length :=
    ( takeWhile_prefix _).length_le
  split
  · exact failure_inside (by omega) (by omega) _ _
  split
  · rename_i found
    have place := badPercent_lt found
    exact failure_inside (by omega) (by omega) _ _
  split
  · unfold analyzeMagnet reject
    dsimp only
    repeat' split
    all_goals first | exact failure_inside (by omega) (by omega) _ _ | trivial
  · unfold analyzeUrl reject
    dsimp only
    split
    · rename_i slashed
      have found : ((structuralPart raw).takeWhile (· ≠ 0x5c)).length <
          (structuralPart raw).length :=
        length_takeWhile_lt (by simpa using slashed)
      exact failure_inside (by omega) (by omega) _ _
    repeat' split
    all_goals first
      | exact analyzeParts_inside named ‹_› _ _
      | exact failure_inside (by omega) (by omega) _ _

end Motrix.DownloadSource
