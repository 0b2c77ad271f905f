/-!
# Enumerations of tasks

What a task is, where it comes from and what has become of it.
-/

namespace Motrix.TaskEnums

inductive TaskKind where
  | direct
  | bt
  | hls
  | mux
  deriving DecidableEq

inductive TaskType where
  | http
  | ftp
  | bt
  | magnet
  | metalink
  deriving DecidableEq

inductive TaskStatus where
  | queued
  | fetchingMetadata
  | metadataReady
  | downloading
  | finalizing
  | seeding
  | paused
  | completed
  | error
  | removed
  deriving DecidableEq

inductive TransitionPhase where
  | idle
  | renaming
  | reseeding
  deriving DecidableEq

inductive TaskInstancePhase where
  | httpDownload
  | btDownload
  | magnetMetadataResolution
  | hlsSegment
  | hlsSubtitle
  | hlsAudio
  | ffmpegMux
  deriving DecidableEq

inductive DownloadErrorCode where
  | unknown
  | notFound
  | unauthorized
  | networkError
  | timeout
  | diskFull
  | fileWriteError
  | pathTooLong
  | checksumMismatch
  | tooManyRedirects
  | serverError
  | btMetadataFailed
  | btTrackerError
  deriving DecidableEq

inductive TaskSource where
  | user
  | bridge
  | plugin
  deriving DecidableEq

end Motrix.TaskEnums
