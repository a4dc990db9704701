/-!
# Format versions

The version that an enveloped program carries.  Versions are ordered by major,
then minor, then patch number.
-/

namespace Crossnet

/-- A version of the wire format. -/
structure Version where
  major : UInt8
  minor : UInt8
  patch : UInt8
deriving DecidableEq

namespace Version

instance : Ord Version where
  compare a b :=
    (compare a.major b.major).then ((compare a.minor b.minor).then (compare a.patch b.patch))

/-- The version that this library writes. -/
def current : Version := ⟨1, 0, 0⟩

/-- Whether a program of this version can be read: the major version is the current one and the
whole version is not newer. -/
def isReadable (v : Version) : Bool :=
  v.major = current.major && (compare v current).isLE

end Version

end Crossnet
