import Seamark.Catalog.Listing
import Seamark.Command.Wait
import Seamark.Config
import Seamark.File
import Seamark.Playback.Stage

/-!
# Trouble of a command

Whatever keeps a command from doing what it is asked for is a trouble. Trouble that the user can mend,
such as a missing file or a text that is no number, is reported on a line; any other one, such as a
list where a number belongs, leaves the command unreported.
-/

namespace Seamark

/-- A value that is no number is reported if it is a text, or has too many digits. -/
def ConversionError.isReported : ConversionError → Bool
  | badNumber _ | tooManyDigits => true
  | notNumeric | numberTooLarge => false

/-- A light without a timeline is reported if a count has too many digits. -/
def CompileError.isReported : CompileError → Bool
  | tooManyDigits _ => true
  | noFirstColor | noColorToShare | countTooLarge => false

/-- A colour is reported if its text or one of its channels denotes none. -/
def ColorError.isReported : ColorError → Bool
  | invalidHex _ | unknownName _ | noChannel .notANumber => true
  | noBrightestChannel | noChannel .infinite => false

/-- A file is reported if there is none of the name or its text is no document, unless a number in it
is too large to be looked at. -/
def FileError.isReported : FileError → Bool
  | missing | nullCharacter | halfCharacters .. => true
  | unreadable cause => !cause.isOverflow
  | isDirectory | notDirectory => false

/-- A configuration is reported if it is no map or holds a text that is no number. -/
def ConfigError.isReported : ConfigError → Bool
  | notAMapping _ => true
  | entriesNotAMapping => false
  | conversion cause => cause.isReported

/-- A catalogue is reported if an entry lacks something or holds a text that is no number. -/
def CatalogError.isReported : CatalogError → Bool
  | notAMapping _ | missing _ _ | arcWithoutBounds _ _ => true
  | notAList | arcsNotAList => false
  | conversion cause => cause.isReported

/-- A fault of playback is reported if it comes from a count or a colour that is. -/
def Fault.isReported : Fault → Bool
  | compile cause => cause.isReported
  | display cause => cause.isReported
  | listener _ | tooDeep => false

/-- The text of a fault. -/
def Fault.message : Fault → String
  | listener reason => reason
  | compile cause => cause.message
  | display cause => cause.message
  | tooDeep => "listeners call each other too deeply"

namespace Command

/-- What keeps a command from doing what it is asked for. -/
inductive Trouble where
  /-- The file of a path has no document. -/
  | file (path : String) (cause : FileError)
  /-- The document is no configuration. -/
  | config (cause : ConfigError)
  /-- The configuration names a catalogue by something that is no text. -/
  | catalogNotNamed
  /-- The document is no catalogue. -/
  | catalog (cause : CatalogError)
  /-- A light of the catalogue cannot be listed. -/
  | listing (cause : Catalog.ListingError)
  /-- The notation is no characteristic. -/
  | unparsed (code : String)
  /-- The light has no timeline. -/
  | compile (cause : CompileError)
  /-- The first segment cannot be shown. -/
  | playback (fault : Fault)
  /-- The clock refuses to wait for the time to play. -/
  | wait (cause : WaitError)
deriving DecidableEq, Repr

namespace Trouble

/-- The trouble is reported on a line. -/
def isReported : Trouble → Bool
  | file _ cause => cause.isReported
  | config cause => cause.isReported
  | catalogNotNamed => false
  | catalog cause => cause.isReported
  | listing (.compile cause) => cause.isReported
  | listing (.range cause) => cause.isReported
  | unparsed _ => true
  | compile cause => cause.isReported
  | playback fault => fault.isReported
  | wait cause => cause.isReported

/-- The text of the trouble. -/
def message : Trouble → String
  | file path cause => cause.message path
  | config cause => cause.message
  | catalogNotNamed => "the catalog is not named by a text"
  | catalog cause => cause.message
  | listing (.compile cause) => cause.message
  | listing (.range cause) => cause.message
  | unparsed code => "could not parse light characteristic: " ++ Text.quoted code
  | compile cause => cause.message
  | playback fault => fault.message
  | wait cause => cause.message

end Trouble

end Command

end Seamark
