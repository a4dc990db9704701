import Crossnet.Version

/-!
# Why bytes are not a value

The causes for which reading fails, and their texts.
-/

namespace Crossnet

/-- The cause of a failed read. -/
inductive DecodeError
  /-- The input ends before the value does. -/
  | unexpectedEnd
  /-- The bytes are no value of the type. -/
  | invalidValue
  /-- The tag of a tagged type names none of its cases. -/
  | unknownTag (type : String) (tag : UInt8)
  /-- The value is complete and bytes are left. -/
  | trailingBytes (count : Nat)
  /-- A program is nested in more programs than allowed. -/
  | nestingTooDeep (limit : Nat)
  /-- The envelope does not begin with the magic bytes. -/
  | badMagic
  /-- The envelope has a version that cannot be read. -/
  | unsupportedVersion (version : Version)
deriving DecidableEq

namespace DecodeError

/-- The text of the cause. -/
def message : DecodeError → String
  | unexpectedEnd => "unexpected end of input"
  | invalidValue => "invalid value"
  | unknownTag type tag => s!"unknown {type} tag {tag}"
  | trailingBytes count => s!"{count} trailing bytes"
  | nestingTooDeep limit => s!"nesting deeper than {limit} levels"
  | badMagic => "bad magic"
  | unsupportedVersion v => s!"unsupported format version {v.major}.{v.minor}.{v.patch}"

end DecodeError

end Crossnet
