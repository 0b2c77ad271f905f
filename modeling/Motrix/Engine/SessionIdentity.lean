import Mathlib.Data.List.Sort
import Motrix.Lib.Except
import Motrix.Lib.TextLines

/-!
# Recovery of session identities

Task rows of an aria2 session whose serialized entry carries the identity of a
metadata ancestor are rewritten to the saved torrent, or kept by the
application and taken out of the engine, before the engine starts.
-/

namespace Motrix.SessionIdentity

open Lib TextLines

abbrev Text := List Char

abbrev Bytes := List UInt8

/-! ## Serialized entries -/

structure Entry where
  source : Text
  gid : Text
  directory : Text
  options : List Text
  paused : Bool
  deriving DecidableEq

def isHex (letter : Char) : Bool :=
  "0123456789abcdef".toList.contains letter

def isGid (text : Text) : Bool :=
  text.length == 16 && text.all isHex

def isIndent (letter : Char) : Bool :=
  letter == ' ' || letter == '\t'

/-- The lines that are not blank. -/
def contentLines (text : Text) : List Text :=
  (splitLines text).filter fun line => !line.all isSpace

def isKeyLetter (letter : Char) : Bool :=
  letter != '=' && !isSpace letter

def isTerminator (letter : Char) : Bool :=
  ['\n', '\r', '\u2028', '\u2029'].contains letter

/-- An indented line `key=value` without a line terminator. -/
def parseOption (line : Text) : Option (Text × Text) :=
  let body := line.dropWhile isIndent
  let key := body.takeWhile isKeyLetter
  match body.dropWhile isKeyLetter with
  | '=' :: value =>
      if body.length < line.length ∧ key ≠ [] ∧
          value.all fun letter => !isTerminator letter then
        some (key, value)
      else none
  | _ => none

def isAbsolute (windows : Bool) (path : Text) : Bool :=
  if windows then
    match path with
    | '/' :: _ => true
    | '\\' :: _ => true
    | drive :: ':' :: separator :: _ =>
        drive.isAlpha && (separator == '/' || separator == '\\')
    | _ => false
  else path.head? == some '/'

def parseEntry (windows : Bool) (text : Text) : Option Entry :=
  match contentLines text with
  | [] => none
  | source :: lines =>
      if !"magnet:".toList.isPrefixOf source || source.contains '\t' then none
      else do
        let options ← lines.mapM parseOption
        let once := ["gid", "dir", "pause"].all fun key =>
          decide ((options.countP fun option => option.1 == key.toList) ≤ 1)
        let gid ← options.lookup "gid".toList
        let directory ← options.lookup "dir".toList
        if once && isGid gid && isAbsolute windows directory then
          some
            { source := source
              gid := gid
              directory := directory
              options := lines
              paused := options.lookup "pause".toList == some "true".toList }
        else none

/-! ## The engine's database -/

structure TaskRow where
  gid : Text
  state : Text
  serialized : Text
  digest : Bytes
  btLocalPath : Option Text
  updatedAt : Nat
  deriving DecidableEq

/-- A record of the history; the followers are those of an array in JSON. -/
structure HistoryRecord where
  id : Nat
  gid : Text
  status : Text
  followedBy : Option (List Text)
  deriving DecidableEq

structure Engine where
  version : Int
  tasks : List TaskRow
  history : List HistoryRecord
  progress : List Text
  legacyCheckpointImport : List Text
  legacyTorrentMetadata : List Text
  deriving DecidableEq

/-! ## The host and the application -/

structure SessionTask where
  engineTaskId : Text
  metadataTaskId : Text
  sourceUri : Text
  saveDir : Text
  infoHash : Text
  deriving DecidableEq

inductive Reason where
  | metadataUnavailable
  | filesMissing
  deriving DecidableEq

structure TaskFailure where
  task : SessionTask
  reason : Reason
  deriving DecidableEq

structure Context where
  metadataPaths : List Text
  retired : Bool

structure RecoveryStore where
  getContext : SessionTask → Context
  quarantine : List TaskFailure → Except String Unit

inductive Stat where
  | missing
  | failed (error : String)
  | directory
  | file (size : Nat)
  | other

inductive ReadResult where
  | missing
  | failed (error : String)
  | bytes (bytes : Bytes)

structure Torrent where
  infoHash : Text
  files : Nat

/-- The calls of `canRepair`, the files, the parsers and whatever may fail. -/
structure Environment where
  windows : Bool
  database : Stat
  canRepair : Nat → Bool
  join : Text → Text → Text
  stat : Text → Stat
  readFile : Text → ReadResult
  parseTorrent : Bytes → Option Torrent
  parseMagnet : Text → Option Text
  store : Option RecoveryStore
  recoveryDir : Text
  absolute : isAbsolute windows recoveryDir = true
  backup : Except String Unit
  writeFile : Text → Bytes → Except String Unit
  digest : Text → Text → Bytes
  dataVersionKept : Bool
  now : Nat
  commit : Except String Unit

variable (env : Environment)

def failure (gid : Text) (reason : String) : String :=
  "aria2 session recovery for GID " ++ String.ofList gid ++ ": " ++ reason

def STOPPED : String := "aria2 session recovery requires a stopped engine"

/-! ## Saved metadata -/

def MAX_TORRENT_BASE64_SIZE : Nat := 50 * 1024 * 1024

def readMatchingMetadata (path infoHash : Text) :
    Except String (Option Bytes) :=
  match env.stat path with
  | .failed error => throw error
  | .file size =>
      if size > MAX_TORRENT_BASE64_SIZE * 3 / 4 then pure none
      else
        match env.readFile path with
        | .missing => pure none
        | .failed error => throw error
        | .bytes bytes =>
            pure (if (env.parseTorrent bytes).any fun torrent =>
                torrent.infoHash == infoHash && torrent.files != 0 then
              some bytes
            else none)
  | _ => pure none

def firstMetadata (infoHash : Text) : List Text →
    Except String (Option Bytes)
  | [] => pure none
  | path :: rest => do
      match ← readMatchingMetadata env path infoHash with
      | some bytes => pure (some bytes)
      | none => firstMetadata infoHash rest

/-! ## Candidates -/

structure Candidate where
  row : TaskRow
  entry : Entry

/-- A row whose entry is that of another one. -/
def asCandidate (windows : Bool) (row : TaskRow) : Option Candidate :=
  (parseEntry windows row.serialized).bind fun entry =>
    if row.gid = entry.gid then none
    else
      some
        { row := row
          entry := entry }

def candidates (windows : Bool) (tasks : List TaskRow) : List Candidate :=
  tasks.filterMap (asCandidate windows)

def legacyGids (engine : Engine) : List Text :=
  (if 4 ≤ engine.version then engine.legacyCheckpointImport else []) ++
    (if 5 ≤ engine.version then engine.legacyTorrentMetadata else [])

def isLegacy (engine : Engine) (candidate : Candidate) : Bool :=
  (legacyGids engine).contains candidate.row.gid ||
    (legacyGids engine).contains candidate.entry.gid

/-- The records of a download, the latest first. -/
def historyOf (engine : Engine) (gid : Text) : List HistoryRecord :=
  (engine.history.filter fun record => record.gid == gid).insertionSort
    fun first second => second.id ≤ first.id

def confirmsChild (child : Text) (record : HistoryRecord) : Bool :=
  record.status == "complete".toList && record.followedBy.any fun gids =>
    gids.all isGid && gids.contains child

def isVerified (engine : Engine) (candidate : Candidate) : Bool :=
  (historyOf engine candidate.entry.gid).head?.any
    (confirmsChild candidate.row.gid)

/-- What becomes of a candidate. -/
structure Verdict where
  candidate : Candidate
  verified : Bool
  outcome : TaskFailure ⊕ Bytes

def checkParent (engine : Engine) (candidate : Candidate) :
    Except String Unit :=
  match engine.tasks.find? fun row => row.gid == candidate.entry.gid with
  | none => pure ()
  | some parent =>
      if (parseEntry env.windows parent.serialized).any fun entry =>
          entry.source == candidate.entry.source &&
            entry.gid == parent.gid && isVerified engine candidate then
        pure ()
      else
        throw (failure candidate.row.gid
          "metadata ancestry could not be verified")

def magnetIdentity (candidate : Candidate) : Except String Text :=
  match env.parseMagnet candidate.entry.source with
  | some infoHash =>
      if infoHash.length = 40 ∧ infoHash.all isHex then pure infoHash
      else throw (failure candidate.row.gid "invalid magnet identity")
  | none => throw (failure candidate.row.gid "invalid magnet identity")

def directoryMissing (directory : Text) : Except String Bool :=
  match env.stat directory with
  | .directory => pure false
  | .failed error => throw error
  | _ => pure true

def isMissing (context : Option Context) (directory : Text) :
    Except String Bool :=
  if context.any (·.retired) then pure false
  else directoryMissing env directory

def savedMetadata (context : Option Context) (task : SessionTask)
    (missing : Bool) : Except String (Option Bytes) :=
  if context.any (·.retired) || missing then pure none
  else
    firstMetadata env task.infoHash
      (env.join task.saveDir (task.infoHash ++ ".torrent".toList) ::
        (context.map (·.metadataPaths)).getD []).eraseDups

def settle (task : SessionTask) (missing : Bool) :
    Option Bytes → Except String (TaskFailure ⊕ Bytes)
  | some bytes => pure (.inr bytes)
  | none =>
      if env.store.isSome then
        pure (.inl
          { task := task
            reason := if missing then .filesMissing
              else .metadataUnavailable })
      else
        throw (failure task.engineTaskId
          ("matching saved torrent metadata is unavailable; " ++
            "session was not changed"))

def recoverable (task : SessionTask) :
    Except String (TaskFailure ⊕ Bytes) := do
  let context := env.store.map (·.getContext task)
  let missing ← isMissing env context task.saveDir
  let found ← savedMetadata env context task missing
  settle env task missing found

def judge (engine : Engine) (candidate : Candidate) :
    Except String Verdict := do
  if !(["waiting".toList, "paused".toList].contains candidate.row.state) then
    throw (failure candidate.row.gid "unsupported task state")
  checkParent env engine candidate
  let infoHash ← magnetIdentity env candidate
  let outcome ← recoverable env
    { engineTaskId := candidate.row.gid
      metadataTaskId := candidate.entry.gid
      sourceUri := candidate.entry.source
      saveDir := candidate.entry.directory
      infoHash := infoHash }
  pure
    { candidate := candidate
      verified := isVerified engine candidate
      outcome := outcome }

/-! ## Changes -/

def separator : Char :=
  if env.windows then '\\' else '/'

def metadataPath (gid : Text) : Text :=
  env.recoveryDir ++ separator env :: (gid ++ ".torrent".toList)

/-- A line that the rewritten entry has of its own. -/
def isOwned (line : Text) : Bool :=
  let body := line.dropWhile isIndent
  decide (body.length < line.length) &&
    ["gid=", "pause=", "torrent-file="].any fun key =>
      key.toList.isPrefixOf body

def staysPaused (candidate : Candidate) : Bool :=
  candidate.row.state == "paused".toList || candidate.entry.paused

def serialize (candidate : Candidate) : Text :=
  metadataPath env candidate.row.gid ++
    '\n' :: (" gid=".toList ++ candidate.row.gid ++
      '\n' :: ((if staysPaused candidate then " pause=true\n".toList else []) ++
        (List.intercalate ['\n']
          (candidate.entry.options.filter fun line => !isOwned line) ++
            ['\n'])))

structure Change where
  row : TaskRow
  serialized : Text
  metadataPath : Text

def change (plan : Candidate × Bytes) : Except String Change := do
  let path := metadataPath env plan.1.row.gid
  if path.any ['\r', '\n', '\t'].contains then
    throw (failure plan.1.row.gid
      "metadata path cannot be represented in an aria2 session")
  env.writeFile path plan.2
  pure
    { row := plan.1.row
      serialized := serialize env plan.1
      metadataPath := path }

def Verdict.plan (verdict : Verdict) : Option (Candidate × Bytes) :=
  verdict.outcome.getRight?.map (verdict.candidate, ·)

def plans (verdicts : List Verdict) : List (Candidate × Bytes) :=
  verdicts.filterMap Verdict.plan

def quarantined (verdicts : List Verdict) : List TaskFailure :=
  verdicts.filterMap (·.outcome.getLeft?)

def retiredMetadataGids (verdicts : List Verdict) : List Text :=
  (verdicts.filter (·.verified)).map (·.candidate.entry.gid)

def retiredHistoryIds (engine : Engine) (verdicts : List Verdict) :
    List Nat :=
  (verdicts.filter (·.verified)).flatMap fun verdict =>
    ((historyOf engine verdict.candidate.entry.gid).filter
      (confirmsChild verdict.candidate.row.gid)).map (·.id)

/-! ## The recovery -/

structure Prepared where
  verdicts : List Verdict
  changes : List Change

/-- Everything before the application and the engine are touched. -/
def prepare (engine : Engine) : Except String (Option Prepared) := do
  match env.database with
  | .missing => pure none
  | .failed error => throw error
  | _ =>
      if !([1, 2, 3, 4, 5, 6].contains engine.version) then pure none
      else if !engine.tasks.all fun row => isGid row.gid then throw "ZodError"
      else
        let found := candidates env.windows engine.tasks
        if found.isEmpty then pure none
        else
          match found.find? (isLegacy engine) with
          | some candidate =>
              throw (failure candidate.row.gid
                "legacy checkpoint identity is immutable")
          | none =>
              if !env.canRepair 0 then throw STOPPED
              let verdicts ← found.mapM (judge env engine)
              if !env.canRepair 1 then throw STOPPED
              env.backup
              let changes ← (plans verdicts).mapM (change env)
              pure (some
                { verdicts := verdicts
                  changes := changes })

def isTarget (change : Change) (row : TaskRow) : Bool :=
  row.gid == change.row.gid && row.serialized == change.row.serialized &&
    row.state == change.row.state

def rewrite (change : Change) (row : TaskRow) : TaskRow :=
  { row with
    serialized := change.serialized
    digest := env.digest change.serialized change.row.state
    btLocalPath := some change.metadataPath
    updatedAt := env.now }

def applyChange (tasks : List TaskRow) (change : Change) :
    Except String (List TaskRow) :=
  if tasks.countP (isTarget change) ≠ 1 then
    throw (failure change.row.gid "task changed during recovery")
  else
    pure (tasks.map fun row =>
      if isTarget change row then rewrite env change row else row)

def removedGids (verdicts : List Verdict) : List Text :=
  retiredMetadataGids verdicts ++
    (quarantined verdicts).map (·.task.engineTaskId)

/-- The transaction.  In the first two versions the progress of a task goes
with its row. -/
def commit (engine : Engine) (prepared : Prepared) :
    Except String Engine := do
  if !env.canRepair 2 || !env.dataVersionKept then
    throw "aria2 session changed during recovery; retry with the engine stopped"
  let tasks ← prepared.changes.foldlM (applyChange env) engine.tasks
  env.commit
  let removed := removedGids prepared.verdicts
  let ids := retiredHistoryIds engine prepared.verdicts
  pure
    { engine with
      tasks := tasks.filter fun row => !removed.contains row.gid
      progress := engine.progress.filter fun gid => !removed.contains gid
      history := engine.history.filter fun record => !ids.contains record.id }

structure World where
  engine : Engine
  application : List TaskFailure

inductive Outcome where
  | threw (message : String)
  | nothing
  | recovered (repairedGids retiredMetadataGids quarantinedGids : List Text)
  deriving DecidableEq

def quarantine (failures : List TaskFailure) : Except String Unit :=
  match env.store with
  | none => pure ()
  | some store =>
      if failures.isEmpty then pure () else store.quarantine failures

def recoverAria2SessionIdentity (world : World) : Outcome × World :=
  match prepare env world.engine with
  | .error message => (.threw message, world)
  | .ok none => (.nothing, world)
  | .ok (some prepared) =>
      let failures := quarantined prepared.verdicts
      match quarantine env failures with
      | .error message => (.threw message, world)
      | .ok () =>
          let kept :=
            { world with application := world.application ++ failures }
          match commit env world.engine prepared with
          | .error message => (.threw message, kept)
          | .ok engine =>
              (.recovered ((plans prepared.verdicts).map (·.1.row.gid))
                  (retiredMetadataGids prepared.verdicts)
                  (failures.map (·.task.engineTaskId)),
                { kept with engine := engine })

end Motrix.SessionIdentity
