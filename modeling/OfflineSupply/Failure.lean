import OfflineSupply.Command.Error
import OfflineSupply.Discovery.Error
import OfflineSupply.Manifest.Error
import OfflineSupply.Reference.Error

/-!
# Failures

Work stops for a cause.  Most causes are reported: they have a message for the user, and a
phase may go on to its next category after one.  An operation on files that nothing expected
to fail, and data that a step takes for something it is not, break the work off.
-/

namespace OfflineSupply

/-- What breaks the work off without a message. -/
inductive Breakdown where
  /-- Octets that are not UTF-8 where text is read. -/
  | undecodable
  /-- A whole number with too many digits. -/
  | numberTooLong
  /-- A NUL character in the name of a file. -/
  | nulInName
  /-- A value that is no text where the name or address of something is needed. -/
  | notText
  /-- A tagged truth value that is none of the known words. -/
  | unknownTruthWord
  /-- A tagged number without a digit. -/
  | emptyNumber
  /-- A tagged number that is none. -/
  | malformedNumber
  /-- Fields that name no day or no time. -/
  | noSuchMoment
  /-- A tagged time that has not the form of one. -/
  | malformedMoment
  /-- A code that is no character's. -/
  | noSuchCharacter (code : Nat)
  /-- A tagged time whose text is that of a collection. -/
  | momentOfCollection
  /-- A number that no double is near to. -/
  | numberOutOfRange
  /-- What is nested too deeply to be followed, as a collection inside itself is. -/
  | nestedTooDeeply
  deriving DecidableEq, Repr

/-- Why work ends before its time. -/
inductive Failure where
  | missingRegistry
  | missingTools (names : List String)
  | manifest (cause : ManifestError)
  | reference (cause : Reference.Error)
  | discovery (cause : DiscoveryError)
  | missingArchive (name : String)
  | command (cause : CommandError)
  /-- Several categories could not be pushed; `first` is the message of the first one. -/
  | push (categories : List String) (first : String)
  /-- A stage that gave up by itself. -/
  | stage (name : String)
  | file (cause : FileError)
  | breakdown (cause : Breakdown)

namespace Failure

/-- The failure that a file operation ends in. -/
def ofFile (e : FileError) : Failure :=
  match e.problem with
  | .nulInName => breakdown .nulInName
  | .nestedTooDeeply => breakdown .nestedTooDeeply
  | _ => file e

/-- Whether a failure is one that the user is told about. -/
def isReported : Failure → Bool
  | file _ => false
  | breakdown _ => false
  | _ => true

/-- The wording of a failure. -/
def message : Failure → String
  | missingRegistry => "Required parameter is missing: --registry"
  | missingTools names =>
    "Missing required command line tools: " ++ ", ".intercalate names ++
      ". Install them and ensure they are on PATH."
  | manifest cause => cause.message
  | reference cause => cause.message
  | discovery cause => cause.message
  | missingArchive name => "File " ++ name ++ " does not exist."
  | command cause => cause.message
  | push categories first => "Failed to push " ++ ", ".intercalate categories ++ ": " ++ first
  | stage name => "fail " ++ name
  | file cause => cause.message
  | breakdown _ => ""

end Failure

end OfflineSupply
