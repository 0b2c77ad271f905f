import Motrix.Task.EngineMerge

/-!
# What a merge loses

A merge is compared with what it should keep: the error of a task that fails,
the fields that the engine does not report, and the stored task as a whole when
no difference is found.
-/

namespace Motrix.EngineMerge

open TaskEnums (TaskKind TaskType TaskStatus TransitionPhase TaskInstancePhase
  DownloadErrorCode TaskSource)

variable {stored snapshot : DownloadTask} {now : ℚ}

def errorGroup (task : DownloadTask) :=
  (task.errorCode, task.errorMessage, task.errorDetailKey,
    task.errorDetailParams)

def identity (task : DownloadTask) :=
  (task.id, task.engineTaskId, task.name, task.type, task.kind)

def paths (task : DownloadTask) :=
  (task.saveDir, task.filename, task.diskPath, task.finalPath, task.finalName,
    task.torrentMetaPath)

def provenance (task : DownloadTask) :=
  (task.source, task.sourceMeta)

def unreported (bt : BtExtension) :=
  (bt.isPrivate, bt.magnetUri, bt.sequentialDownload)

def withTime (task : DownloadTask) (updatedAt : ℚ) : DownloadTask :=
  { task with updatedAt }

/-- No fact of the engine and none of the application gets lost. -/
structure LosesNothing (stored snapshot : DownloadTask) (now : ℚ) : Prop where
  error : isTerminalTaskStatus stored.status = false →
    (mergeEngineTask stored snapshot now).status = .error →
      errorGroup (mergeEngineTask stored snapshot now) = errorGroup snapshot
  bt : ∀ bt, stored.bt = some bt →
    (mergeEngineTask stored snapshot now).bt.map unreported =
      some (unreported bt)
  kept : identity (mergeEngineTask stored snapshot now) = identity stored ∧
    paths (mergeEngineTask stored snapshot now) = paths stored ∧
      provenance (mergeEngineTask stored snapshot now) = provenance stored
  unchanged :
    hasEngineTaskDelta stored (mergeEngineTask stored snapshot now) = false →
      withTime (mergeEngineTask stored snapshot now) stored.updatedAt = stored

/-! ## Conditions on the stored task and the snapshot -/

/-- The extension that the merge starts from. -/
def reported (snapshot : DownloadTask) (bt : BtExtension) : BtExtension :=
  snapshot.bt.getD bt

/-- The extension repeats the stored one. -/
def RepeatsBt (stored snapshot : DownloadTask) (bt : BtExtension) : Prop :=
  (hasLegacyImport stored = false →
    (reported snapshot bt).selectedFiles = bt.selectedFiles ∧
      (reported snapshot bt).trackers = bt.trackers) ∧
  (reported snapshot bt).comment = bt.comment ∧
  (reported snapshot bt).peers = bt.peers ∧
  (reported snapshot bt).seeds = bt.seeds ∧
  shareRatio (mergedUpload stored snapshot)
    (nonZero stored.totalBytes snapshot.totalBytes) = bt.ratio

/-- The snapshot brings nothing new in the fields that are compared. -/
structure Repeats (stored snapshot : DownloadTask) : Prop where
  status : nextStatus stored snapshot = stored.status
  ended : isTerminalTaskStatus stored.status = false →
    stored.finishedAt = none ∧ stored.errorMessage = none ∧
      stored.errorCode = none
  progress : mergedProgress (nonZeroMerge stored snapshot) = stored.progress
  lengths : nonZero stored.totalBytes snapshot.totalBytes = stored.totalBytes ∧
    nonZero stored.sizeWhenDone snapshot.sizeWhenDone = stored.sizeWhenDone ∧
    nonZero stored.downloadedBytes snapshot.downloadedBytes =
      stored.downloadedBytes ∧
    nonZero stored.pieceLength snapshot.pieceLength = stored.pieceLength ∧
    nonZero stored.fileCount snapshot.fileCount = stored.fileCount
  speeds : snapshot.downloadSpeed = stored.downloadSpeed ∧
    snapshot.uploadSpeed = stored.uploadSpeed ∧
    snapshot.etaSeconds = stored.etaSeconds ∧
    snapshot.connections = stored.connections
  uploadedBytes : mergedUpload stored snapshot = stored.uploadedBytes
  infoHash : (snapshot.infoHash <|> stored.infoHash) = stored.infoHash
  uris : mergedUris stored snapshot = stored.uris
  none : stored.bt = none → snapshot.bt = none
  bt : ∀ bt, stored.bt = some bt → RepeatsBt stored snapshot bt

/-- The fields that are not compared are as the merge leaves them. -/
structure Settled (stored snapshot : DownloadTask) : Prop where
  running : isTerminalTaskStatus stored.status = false →
    stored.errorDetailKey = none ∧ stored.errorDetailParams = none ∧
      stored.diagnosisRevision = 0
  ended : isTerminalTaskStatus stored.status = true →
    ∀ entry ∈ stored.instances, entry.status = stored.status
  bt : ∀ bt, stored.bt = some bt →
    (hasLegacyImport stored = false →
      (reported snapshot bt).announceList = bt.announceList) ∧
    (reported snapshot bt).peersInSwarm = bt.peersInSwarm ∧
    (reported snapshot bt).seedsInSwarm = bt.seedsInSwarm ∧
    (reported snapshot bt).magnetUri = bt.magnetUri ∧
    (reported snapshot bt).sequentialDownload = bt.sequentialDownload

structure Agrees (stored snapshot : DownloadTask) : Prop where
  error : isTerminalTaskStatus stored.status = false →
    nextStatus stored snapshot = .error →
      stored.errorDetailKey = snapshot.errorDetailKey ∧
        stored.errorDetailParams = snapshot.errorDetailParams
  bt : ∀ bt, stored.bt = some bt →
    (reported snapshot bt).magnetUri = bt.magnetUri ∧
      (reported snapshot bt).sequentialDownload = bt.sequentialDownload
  unchanged : Repeats stored snapshot → Settled stored snapshot

/-! ## The fields of a merge -/

theorem applyTerminalTransition_status {current : TerminalFields}
    {status : TaskStatus} {incoming : TerminalTransitionInput} :
    (applyTerminalTransition current status incoming now).status = status := by
  simp only [applyTerminalTransition]
  split
  · rfl
  · split
    · next same => exact same
    · rfl

theorem mergeReport_status :
    (mergeReport stored snapshot now).status = nextStatus stored snapshot :=
  applyTerminalTransition_status

/-- Without a change of the status the end of a task stays as it is. -/
theorem mergeReport_sameStatus
    (same : nextStatus stored snapshot = stored.status) :
    (mergeReport stored snapshot now).toTerminalFields =
      if isTerminalTaskStatus stored.status then stored.toTerminalFields
      else clearedFields stored.status := by
  simp only [mergeReport, same, applyTerminalTransition]
  cases isTerminalTaskStatus stored.status <;> rfl

theorem mergeReport_failed
    (running : isTerminalTaskStatus stored.status = false)
    (failed : nextStatus stored snapshot = .error) :
    errorGroup (mergeReport stored snapshot now) =
      (snapshot.errorCode, snapshot.errorMessage, stored.errorDetailKey,
        stored.errorDetailParams) := by
  have other : stored.status ≠ .error := by
    intro same
    rw [same] at running
    contradiction
  simp only [errorGroup, mergeReport, failed, applyTerminalTransition,
    if_neg other]
  rfl

theorem mergeReport_bt {bt : BtExtension} (some : stored.bt = some bt) :
    (mergeReport stored snapshot now).bt = .some {
      reported snapshot bt with
      isPrivate := bt.isPrivate
      selectedFiles :=
        if hasLegacyImport stored then bt.selectedFiles
        else (reported snapshot bt).selectedFiles
      announceList :=
        if hasLegacyImport stored then bt.announceList
        else (reported snapshot bt).announceList
      trackers :=
        if hasLegacyImport stored then bt.trackers
        else (reported snapshot bt).trackers
      ratio := shareRatio (mergedUpload stored snapshot)
        (nonZero stored.totalBytes snapshot.totalBytes)
    } := by
  simp only [mergeReport, mergedBt, nonZeroMerge, some, reported]
  cases snapshot.bt <;> rfl

theorem mergeReport_noBt (absent : stored.bt = none) :
    (mergeReport stored snapshot now).bt = none ↔ snapshot.bt = none := by
  simp [mergeReport, mergedBt, nonZeroMerge, absent]

/-- What is compared of the extensions. -/
def SameBt (before after : Option BtExtension) : Prop :=
  (before.map BtExtension.selectedFiles).getD [] =
      (after.map BtExtension.selectedFiles).getD [] ∧
    (before.map BtExtension.trackers).getD [] =
      (after.map BtExtension.trackers).getD [] ∧
    before.map BtExtension.comment = after.map BtExtension.comment ∧
    before.map BtExtension.peers = after.map BtExtension.peers ∧
    before.map BtExtension.seeds = after.map BtExtension.seeds ∧
    before.map BtExtension.ratio = after.map BtExtension.ratio

theorem sameBt_iff :
    SameBt stored.bt (mergeReport stored snapshot now).bt ↔
      (stored.bt = none → snapshot.bt = none) ∧
        ∀ bt, stored.bt = some bt → RepeatsBt stored snapshot bt := by
  cases extension : stored.bt with
  | none =>
      rw [← @mergeReport_noBt stored snapshot now extension]
      cases (mergeReport stored snapshot now).bt <;> simp [SameBt]
  | some bt =>
      rw [mergeReport_bt extension]
      cases legacy : hasLegacyImport stored <;>
        simp [SameBt, RepeatsBt, legacy, eq_comm, and_assoc]

theorem delta_iff :
    hasEngineTaskDelta stored (mergeReport stored snapshot now) = false ↔
      Repeats stored snapshot := by
  simp only [hasEngineTaskDelta, Bool.or_eq_false_iff, bne_eq_false_iff_eq,
    Bool.not_eq_false', sameValues, beq_iff_eq, mergeReport_status, and_assoc]
  constructor
  · intro same
    obtain ⟨status, progress, total, done, downloaded, down, up, eta,
      connections, piece, upload, files, message, code, finished, hash, uris,
      extension⟩ := same
    obtain ⟨absent, repeated⟩ := sameBt_iff.mp extension
    have ended := @mergeReport_sameStatus stored snapshot now status.symm
    refine ⟨status.symm, ?_, progress.symm,
      ⟨total.symm, done.symm, downloaded.symm, piece.symm, files.symm⟩,
      ⟨down.symm, up.symm, eta.symm, connections.symm⟩, upload.symm, hash.symm,
      uris.symm, absent, repeated⟩
    intro running
    rw [running] at ended
    rw [ended] at message code finished
    exact ⟨finished, message, code⟩
  · intro same
    obtain ⟨status, ended, progress, lengths, speeds, upload, hash, uris,
      absent, repeated⟩ := same
    have kept := @mergeReport_sameStatus stored snapshot now status
    have terminal : stored.errorMessage =
          (mergeReport stored snapshot now).errorMessage ∧
        stored.errorCode = (mergeReport stored snapshot now).errorCode ∧
        stored.finishedAt = (mergeReport stored snapshot now).finishedAt := by
      rw [kept]
      cases running : isTerminalTaskStatus stored.status with
      | true => exact ⟨rfl, rfl, rfl⟩
      | false =>
          obtain ⟨finished, message, code⟩ := ended running
          exact ⟨message, code, finished⟩
    exact ⟨status.symm, progress.symm, lengths.1.symm, lengths.2.1.symm,
      lengths.2.2.1.symm, speeds.1.symm, speeds.2.1.symm, speeds.2.2.1.symm,
      speeds.2.2.2.symm, lengths.2.2.2.1.symm, upload.symm,
      lengths.2.2.2.2.symm, terminal.1, terminal.2.1, terminal.2.2, hash.symm,
      uris.symm, sameBt_iff.mpr ⟨absent, repeated⟩⟩

/-! ## Nothing but the time -/

theorem synced_iff {instances : List TaskInstance} {status : TaskStatus} :
    syncTerminalInstanceStatus instances status = instances ↔
      (isTerminalTaskStatus status = true →
        ∀ entry ∈ instances, entry.status = status) := by
  unfold syncTerminalInstanceStatus
  split
  · next terminal =>
      have entries : ∀ entry : TaskInstance,
          { entry with status } = entry ↔ entry.status = status := by
        intro entry
        constructor
        · intro same
          exact (congrArg TaskInstance.status same).symm
        · intro same
          rw [← same]
      constructor
      · intro same _ entry member
        have alike := same.trans (List.map_id instances).symm
        exact (entries entry).mp (List.map_inj_left.mp alike entry member)
      · intro all
        refine Eq.trans (List.map_inj_left.mpr ?_) (List.map_id instances)
        intro entry member
        exact (entries entry).mpr (all terminal entry member)
  · next running => simp [running]

theorem terminal_iff (same : Repeats stored snapshot) :
    (mergeReport stored snapshot now).toTerminalFields =
        stored.toTerminalFields ↔
      (isTerminalTaskStatus stored.status = false →
        stored.errorDetailKey = none ∧ stored.errorDetailParams = none ∧
          stored.diagnosisRevision = 0) := by
  rw [mergeReport_sameStatus same.status]
  cases running : isTerminalTaskStatus stored.status with
  | true => simp
  | false =>
      obtain ⟨finished, message, code⟩ := same.ended running
      constructor
      · intro cleared _
        exact ⟨(congrArg TerminalFields.errorDetailKey cleared).symm,
          (congrArg TerminalFields.errorDetailParams cleared).symm,
          (congrArg TerminalFields.diagnosisRevision cleared).symm⟩
      · intro settled
        obtain ⟨key, params, revision⟩ := settled rfl
        exact TerminalFields.ext rfl finished.symm message.symm code.symm
          key.symm params.symm revision.symm

theorem bt_iff (same : Repeats stored snapshot) :
    (mergeReport stored snapshot now).bt = stored.bt ↔
      ∀ bt, stored.bt = some bt →
        (hasLegacyImport stored = false →
          (reported snapshot bt).announceList = bt.announceList) ∧
        (reported snapshot bt).peersInSwarm = bt.peersInSwarm ∧
        (reported snapshot bt).seedsInSwarm = bt.seedsInSwarm ∧
        (reported snapshot bt).magnetUri = bt.magnetUri ∧
        (reported snapshot bt).sequentialDownload = bt.sequentialDownload := by
  cases extension : stored.bt with
  | none =>
      rw [mergeReport_noBt extension]
      simp [same.none extension]
  | some bt =>
      obtain ⟨lists, comment, peers, seeds, ratio⟩ := same.bt bt extension
      rw [mergeReport_bt extension, Option.some_inj, BtExtension.ext_iff]
      cases legacy : hasLegacyImport stored with
      | true => simp [comment, peers, seeds, ratio]
      | false => simp [comment, peers, seeds, ratio, lists legacy, and_left_comm]

theorem fields_iff (same : Repeats stored snapshot) :
    withTime (mergeReport stored snapshot now) stored.updatedAt = stored ↔
      (mergeReport stored snapshot now).toTerminalFields =
          stored.toTerminalFields ∧
        (mergeReport stored snapshot now).bt = stored.bt ∧
          (mergeReport stored snapshot now).instances = stored.instances := by
  constructor
  · intro whole
    exact ⟨congrArg (fun task => task.toTerminalFields) whole,
      congrArg (fun task => task.bt) whole,
      congrArg (fun task => task.instances) whole⟩
  · intro parts
    obtain ⟨terminal, extension, instances⟩ := parts
    simp only [mergeReport] at terminal extension instances
    rw [terminal] at instances
    simp only [withTime, mergeReport, terminal, extension, instances,
      same.progress]
    simp only [nonZeroMerge, same.lengths, same.speeds, same.uploadedBytes,
      same.infoHash, same.uris]

/-- The fields that are compared hide what else a merge changes. -/
theorem unchanged_iff (same : Repeats stored snapshot) :
    withTime (mergeReport stored snapshot now) stored.updatedAt = stored ↔
      Settled stored snapshot := by
  have instances : (mergeReport stored snapshot now).instances =
      syncTerminalInstanceStatus stored.instances stored.status := by
    rw [← same.status]
    exact congrArg (syncTerminalInstanceStatus stored.instances)
      mergeReport_status
  rw [fields_iff same, terminal_iff same, bt_iff same, instances, synced_iff]
  constructor
  · intro parts
    exact ⟨parts.1, parts.2.2, parts.2.1⟩
  · intro settled
    exact ⟨settled.running, settled.bt, settled.ended⟩

/-! ## Exactly when nothing is lost -/

theorem mergeReport_unreported :
    (∀ bt, stored.bt = some bt →
        (mergeReport stored snapshot now).bt.map unreported =
          some (unreported bt)) ↔
      ∀ bt, stored.bt = some bt →
        (reported snapshot bt).magnetUri = bt.magnetUri ∧
          (reported snapshot bt).sequentialDownload = bt.sequentialDownload := by
  apply forall_congr'
  intro bt
  apply imp_congr_right
  intro extension
  rw [mergeReport_bt extension]
  simp [unreported]

theorem retained_losesNothing (retained : retains stored snapshot = true) :
    LosesNothing stored snapshot now := by
  have whole : mergeEngineTask stored snapshot now = stored := if_pos retained
  refine ⟨?_, ?_, ?_, ?_⟩ <;> rw [whole]
  · intro running failed
    rw [failed] at running
    contradiction
  · intro bt extension
    rw [extension]
    rfl
  · exact ⟨rfl, rfl, rfl⟩
  · exact fun _ => rfl

theorem losesNothing_iff :
    LosesNothing stored snapshot now ↔
      retains stored snapshot = true ∨ Agrees stored snapshot := by
  cases retained : retains stored snapshot with
  | true => simp [retained_losesNothing retained]
  | false =>
      have whole : mergeEngineTask stored snapshot now =
          mergeReport stored snapshot now := by
        rw [mergeEngineTask, retained]
        rfl
      rw [or_iff_right Bool.false_ne_true]
      constructor
      · intro nothing
        obtain ⟨error, bt, -, unchanged⟩ := nothing
        rw [whole] at error bt unchanged
        refine ⟨?_, mergeReport_unreported.mp bt, ?_⟩
        · intro running failed
          have group := error running (mergeReport_status.trans failed)
          rw [mergeReport_failed running failed] at group
          simpa [errorGroup] using group
        · intro same
          exact (unchanged_iff same).mp (unchanged (delta_iff.mpr same))
      · intro agrees
        refine ⟨?_, ?_, ?_, ?_⟩ <;> rw [whole]
        · intro running failed
          rw [mergeReport_status] at failed
          obtain ⟨key, params⟩ := agrees.error running failed
          rw [mergeReport_failed running failed, errorGroup, key, params]
        · exact mergeReport_unreported.mpr agrees.bt
        · exact ⟨rfl, rfl, rfl⟩
        · intro quiet
          have same := delta_iff.mp quiet
          exact (unchanged_iff same).mpr (agrees.unchanged same)

section Snapshots

variable {host : SnapshotHost} {raw : Aria2TaskStatus}

theorem translateRawToTask_status :
    (translateRawToTask host raw).status = translateStatus raw :=
  applyTerminalTransition_status

/-- A snapshot of a failure has what its message reveals. -/
theorem translateRawToTask_failed (failed : translateStatus raw = .error) :
    (translateRawToTask host raw).errorDetailKey =
        (classifyTerminalError host raw.errorCode
          raw.errorMessage).errorDetailKey ∧
      (translateRawToTask host raw).errorDetailParams =
        (classifyTerminalError host raw.errorCode
          raw.errorMessage).errorDetailParams := by
  simp only [translateRawToTask, failed]
  exact ⟨rfl, rfl⟩

/-- A task that was not at an end fails because the engine says so. -/
theorem failed_of_nextStatus
    (running : isTerminalTaskStatus stored.status = false)
    (failed : nextStatus stored snapshot = .error) :
    snapshot.status = .error := by
  unfold nextStatus at failed
  split at failed
  · rw [failed] at running
    contradiction
  · exact failed

theorem reported_iff :
    (∀ bt, stored.bt = some bt →
        (reported (translateRawToTask host raw) bt).magnetUri = bt.magnetUri ∧
          (reported (translateRawToTask host raw) bt).sequentialDownload =
            bt.sequentialDownload) ↔
      (raw.bittorrent.isSome = true → ∀ bt, stored.bt = some bt →
        bt.magnetUri = none ∧ bt.sequentialDownload = false) := by
  have extension : (translateRawToTask host raw).bt =
      translateBtExtension host raw := rfl
  simp only [reported, extension, translateBtExtension]
  cases raw.bittorrent with
  | none => simp
  | some bittorrent =>
      constructor
      · intro same _ bt stored
        exact ⟨(same bt stored).1.symm, (same bt stored).2.symm⟩
      · intro same bt stored
        exact ⟨(same rfl bt stored).1.symm, (same rfl bt stored).2.symm⟩

end Snapshots

/-- A poll loses nothing exactly when the stored task has the details of the
error already, no magnet link and no order of its own, and nothing else to lose
where no difference is found. -/
theorem mergeEngineTask_losesNothing_iff (host : SnapshotHost)
    (raw : Aria2TaskStatus) (stored : DownloadTask) (now : ℚ) :
    LosesNothing stored (translateRawToTask host raw) now ↔
      retains stored (translateRawToTask host raw) = true ∨
        (isTerminalTaskStatus stored.status = false →
          nextStatus stored (translateRawToTask host raw) = .error →
            stored.errorDetailKey = (classifyTerminalError host raw.errorCode
                raw.errorMessage).errorDetailKey ∧
              stored.errorDetailParams = (classifyTerminalError host
                raw.errorCode raw.errorMessage).errorDetailParams) ∧
        (raw.bittorrent.isSome = true → ∀ bt, stored.bt = some bt →
          bt.magnetUri = none ∧ bt.sequentialDownload = false) ∧
        (Repeats stored (translateRawToTask host raw) →
          Settled stored (translateRawToTask host raw)) := by
  rw [losesNothing_iff, ← reported_iff]
  apply or_congr Iff.rfl
  have details : isTerminalTaskStatus stored.status = false →
      nextStatus stored (translateRawToTask host raw) = .error →
        translateStatus raw = .error := by
    intro running failed
    rw [← @translateRawToTask_status host]
    exact failed_of_nextStatus running failed
  constructor
  · intro agrees
    refine ⟨?_, agrees.bt, agrees.unchanged⟩
    intro running failed
    have reveals := @translateRawToTask_failed host raw (details running failed)
    rw [← reveals.1, ← reveals.2]
    exact agrees.error running failed
  · intro parts
    obtain ⟨error, bt, unchanged⟩ := parts
    refine ⟨?_, bt, unchanged⟩
    intro running failed
    have reveals := @translateRawToTask_failed host raw (details running failed)
    rw [reveals.1, reveals.2]
    exact error running failed

/-! ## A magnet link that a poll drops -/

def numeralHost : SnapshotHost where
  number text := parseDigits text
  trim text := text
  basename path := lastPart path path
  join directory name := directory ++ "/" ++ name
  pathname _ := none
  platform := "linux"
  now := 1

def polledMagnet : Aria2TaskStatus where
  gid := "g"
  status := .active
  totalLength := "9"
  completedLength := "3"
  uploadLength := "0"
  downloadSpeed := "1"
  uploadSpeed := "0"
  connections := "1"
  numSeeders := "1"
  seeder := "false"
  pieceLength := "1"
  dir := "/d"
  files := []
  fileMetadata := none
  bittorrent := some ⟨none, none, some "n"⟩
  infoHash := none
  errorCode := none
  errorMessage := none

/-- As adopted from the engine, with the link it was added by. -/
def storedMagnet : DownloadTask := {
  translateRawToTask numeralHost polledMagnet with
  bt := (translateBtExtension numeralHost polledMagnet).map fun bt =>
    { bt with magnetUri := some "magnet:?xt=urn:btih:a" }
}

theorem polledMagnet_forgotten :
    ¬ ∀ host raw stored now,
      LosesNothing stored (translateRawToTask host raw) now := by
  intro claimed
  obtain ⟨-, kept, -, -⟩ := claimed numeralHost polledMagnet storedMagnet 2
  have fresh : retains storedMagnet
      (translateRawToTask numeralHost polledMagnet) = false := rfl
  rw [mergeEngineTask, fresh] at kept
  have lost := mergeReport_unreported.mp kept _ rfl
  exact absurd lost.1 (by decide)

end Motrix.EngineMerge
