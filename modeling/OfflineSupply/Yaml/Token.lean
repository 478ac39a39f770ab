import OfflineSupply.Failure
import OfflineSupply.Text.Raw

/-!
# Tokens

A stream of YAML falls into tokens.  Besides the marks that are written, there are tokens
where a block begins and ends, which only the indentation shows, and one before each key.
-/

namespace OfflineSupply.Yaml

/-- A token of a stream. -/
inductive Token where
  | versionDirective (major : Nat)
  | tagDirective (handle lead : String)
  | otherDirective
  | documentStart
  | documentEnd
  | streamEnd
  | blockSequenceStart
  | blockMappingStart
  | blockEnd
  | flowSequenceStart
  | flowSequenceEnd
  | flowMappingStart
  | flowMappingEnd
  | blockEntry
  | flowEntry
  | key
  | value
  | alias (name : String)
  | anchor (name : String)
  | tag (handle : Option String) (suffix : String)
  | scalar (text : RawText) (plain : Bool)
  /-- What stands for a token that cannot be read although its form is right. -/
  | impossible (cause : Breakdown)
  deriving DecidableEq, Repr

/-- Why a stream is not loaded. -/
inductive Trouble where
  | malformed
  | breakdown (cause : Breakdown)
  deriving DecidableEq, Repr

end OfflineSupply.Yaml
