import Crossnet.Storage.Overlay

/-!
# Scripts

A script is a computation that touches storage only by reading and writing
keys.  It is written once and runs on any storage: on a store, on an overlay,
or on a stack of them.  `run` leaves the storage as the script left it, also
when the script fails; `atomically` runs the script on an overlay and carries
its writes out only when it succeeds.

* `run_bind`: a script in two parts runs as its parts do, one after the other.
* `run_mapError`: other words for a failure change nothing else.
* `atomically_error`: a failed script leaves the storage as it was.
-/

namespace Crossnet

/-- A computation that reads and writes keys, and ends with a result or fails with a cause. -/
inductive Script (ε α : Type)
  | done (a : α)
  | fail (e : ε)
  | read (key : Digest) (next : Option Bytes → Script ε α)
  | write (key : Digest) (value : Option Bytes) (next : Script ε α)

namespace Script

variable {ε ε' α β σ : Type}

/-- The script that goes on with `f` where `s` is done. -/
def bind (s : Script ε α) (f : α → Script ε β) : Script ε β :=
  match s with
  | done a => f a
  | fail e => fail e
  | read key next => read key fun value => (next value).bind f
  | write key value next => write key value (next.bind f)

instance : Monad (Script ε) where
  pure := done
  bind := bind

theorem bind_done (s : Script ε α) : s.bind done = s := by
  induction s with
  | done _ => rfl
  | fail _ => rfl
  | read key next ih => exact congrArg (read key) (funext ih)
  | write key value next ih => exact congrArg (write key value) ih

theorem bind_assoc {γ : Type} (s : Script ε α) (f : α → Script ε β) (g : β → Script ε γ) :
    (s.bind f).bind g = s.bind fun a => (f a).bind g := by
  induction s with
  | done _ => rfl
  | fail _ => rfl
  | read key next ih => exact congrArg (read key) (funext ih)
  | write key value next ih => exact congrArg (write key value) ih

instance : LawfulMonad (Script ε) :=
  LawfulMonad.mk' (Script ε) bind_done (fun _ _ => rfl) bind_assoc

/-! ## Operations -/

/-- The script that goes on with `handle` where `s` fails. -/
def orElse (s : Script ε α) (handle : ε → Script ε α) : Script ε α :=
  match s with
  | done a => done a
  | fail e => handle e
  | read key next => read key fun value => (next value).orElse handle
  | write key value next => write key value (next.orElse handle)

instance : MonadExcept ε (Script ε) where
  throw := fail
  tryCatch := orElse

/-- The value under a key. -/
def get? (key : Digest) : Script ε (Option Bytes) :=
  read key done

/-- Puts a value under a key, or removes the key. -/
def put (key : Digest) (value : Option Bytes) : Script ε Unit :=
  write key value (done ())

/-- The script with its cause of failure put into other words. -/
def mapError (f : ε → ε') : Script ε α → Script ε' α
  | done a => done a
  | fail e => fail (f e)
  | read key next => read key fun value => (next value).mapError f
  | write key value next => write key value (next.mapError f)

/-! ## Running -/

/-- Runs a script.  A failure keeps what was written before it. -/
def run [Storage σ] : Script ε α → EStateM ε σ α
  | done a, s => .ok a s
  | fail e, s => .error e s
  | read key next, s => (next (Storage.get? s key)).run s
  | write key value next, s => next.run (Storage.put s key value)

/-- Runs a script as a whole or not at all. -/
def atomically [Storage σ] (script : Script ε α) : EStateM ε σ α := fun s =>
  match script.run (Overlay.fresh s) with
  | .ok a o => .ok a o.commit
  | .error e _ => .error e s

variable [Storage σ]

/-- A script in two parts runs as its parts do, one after the other. -/
theorem run_bind (script : Script ε α) (f : α → Script ε β) (s : σ) :
    (script >>= f).run s =
      match script.run s with
      | .ok a s => (f a).run s
      | .error e s => .error e s := by
  show (script.bind f).run s = _
  induction script generalizing s with
  | done a => rfl
  | fail e => rfl
  | read key next ih => exact ih _ _
  | write key value next ih => exact ih _

/-- Other words for a failure change nothing else. -/
theorem run_mapError (f : ε → ε') (script : Script ε α) (s : σ) :
    (script.mapError f).run s =
      match script.run s with
      | .ok a s => .ok a s
      | .error e s => .error (f e) s := by
  induction script generalizing s with
  | done a => rfl
  | fail e => rfl
  | read key next ih => exact ih _ _
  | write key value next ih => exact ih _

/-- A failed script leaves the storage as it was. -/
theorem atomically_error {script : Script ε α} {s t : σ} {e : ε}
    (h : script.atomically s = .error e t) : t = s := by
  unfold atomically at h
  split at h
  · cases h
  · cases h
    rfl

end Script

end Crossnet
