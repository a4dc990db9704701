import Crossnet.Digest

/-!
# Storage

Storage maps digests to byte strings.  Writing `none` under a key removes it.
`LawfulStorage` says that a write is seen by later reads of its key and by no
other read, which is all that anything built on storage relies on.
-/

namespace Crossnet

/-- A key and what is put there: a value, or `none` to remove the key. -/
abbrev Write := Digest × Option Bytes

/-- Something that values can be read from and written to. -/
class Storage (σ : Type) where
  get? : σ → Digest → Option Bytes
  put : σ → Digest → Option Bytes → σ

/-- Reads show the last write to their key. -/
class LawfulStorage (σ : Type) [Storage σ] : Prop where
  get?_put : ∀ (s : σ) (key : Digest) (value : Option Bytes) (other : Digest),
    Storage.get? (Storage.put s key value) other =
      if key = other then value else Storage.get? s other

namespace Storage

/-- Carries out writes in order. -/
def putAll {σ : Type} [Storage σ] (s : σ) (writes : List Write) : σ :=
  writes.foldl (fun s w => put s w.1 w.2) s

end Storage

end Crossnet
