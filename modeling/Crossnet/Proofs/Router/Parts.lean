import Crossnet.Router

/-!
# The parts of a call

A call of a router is a row of parts: some only look at the router, some refuse,
some change it.  A call that fails leaves the router as it was, because the parts
that can fail come before those that change it.

* `bind_eq_ok`, `bind_eq_error`: what a row of parts comes to.
* `Safe`, `Reads`, `Succeeds`, `Scriptless`: a failure changes nothing, nothing is
  changed, there is no failure, there is none of a script; each is kept by rows of the
  right shape.
* `requireAdmin_eq_ok`, `token_eq_ok` and the like: the parts one by one.
-/

namespace Crossnet.Router

variable {α β : Type} {r t : Router}

/-! ## Parts in a row -/

theorem bind_eq_ok {x : RouterM α} {f : α → RouterM β} {b : β} :
    (x >>= f) r = .ok b t ↔ ∃ a u, x r = .ok a u ∧ f a u = .ok b t := by
  show EStateM.bind x f r = _ ↔ _
  unfold EStateM.bind
  cases x r with
  | ok a u =>
    constructor
    · intro h
      exact ⟨a, u, rfl, h⟩
    · rintro ⟨a, u, h, hf⟩
      cases h
      exact hf
  | error e u =>
    constructor
    · intro h
      cases h
    · rintro ⟨a, u, h, -⟩
      cases h

theorem bind_of_ok {x : RouterM α} {a : α} (h : x r = .ok a t) (f : α → RouterM β) :
    (x >>= f) r = f a t := by
  show EStateM.bind x f r = _
  unfold EStateM.bind
  rw [h]

theorem bind_of_error {x : RouterM α} {e : RouterError} (h : x r = .error e t)
    (f : α → RouterM β) : (x >>= f) r = .error e t := by
  show EStateM.bind x f r = _
  unfold EStateM.bind
  rw [h]

theorem bind_eq_error {x : RouterM α} {f : α → RouterM β} {e : RouterError} :
    (x >>= f) r = .error e t ↔ x r = .error e t ∨ ∃ a u, x r = .ok a u ∧ f a u = .error e t := by
  show EStateM.bind x f r = _ ↔ _
  unfold EStateM.bind
  cases x r with
  | ok a u =>
    constructor
    · intro h
      exact .inr ⟨a, u, rfl, h⟩
    · rintro (h | ⟨a, u, h, hf⟩)
      · cases h
      · cases h
        exact hf
  | error d u =>
    constructor
    · intro h
      cases h
      exact .inl rfl
    · rintro (h | ⟨a, u, h, -⟩)
      · cases h
        rfl
      · cases h

/-- A failure leaves the router as it was. -/
def Safe (x : RouterM α) : Prop := ∀ ⦃r e t⦄, x r = .error e t → t = r

/-- The router is left as it was. -/
def Reads (x : RouterM α) : Prop := Safe x ∧ ∀ ⦃r a t⦄, x r = .ok a t → t = r

/-- There is no failure. -/
def Succeeds (x : RouterM α) : Prop := ∀ r e t, x r ≠ .error e t

theorem Reads.pure (a : α) : Reads (Pure.pure a : RouterM α) := by
  constructor
  · intro r e t h
    cases h
  · intro r b t h
    cases h
    rfl

theorem Reads.throw (e : RouterError) : Reads (MonadExcept.throw e : RouterM α) := by
  constructor
  · intro r d t h
    cases h
    rfl
  · intro r a t h
    cases h

theorem Reads.get : Reads (MonadState.get : RouterM Router) := by
  constructor
  · intro r e t h
    cases h
  · intro r a t h
    cases h
    rfl

theorem Reads.bind_safe {x : RouterM α} {f : α → RouterM β} (hx : Reads x)
    (hf : ∀ a, Safe (f a)) : Safe (x >>= f) := by
  intro r e t h
  rcases bind_eq_error.mp h with hfail | ⟨a, u, hok, hfail⟩
  · exact hx.1 hfail
  · obtain rfl := hx.2 hok
    exact hf a hfail

theorem Reads.bind {x : RouterM α} {f : α → RouterM β} (hx : Reads x) (hf : ∀ a, Reads (f a)) :
    Reads (x >>= f) := by
  refine ⟨hx.bind_safe fun a => (hf a).1, ?_⟩
  intro r b t h
  obtain ⟨a, u, hok, hnext⟩ := bind_eq_ok.mp h
  obtain rfl := hx.2 hok
  exact (hf a).2 hnext

theorem Safe.bind {x : RouterM α} {f : α → RouterM β} (hx : Safe x)
    (hf : ∀ a, Succeeds (f a)) : Safe (x >>= f) := by
  intro r e t h
  rcases bind_eq_error.mp h with hfail | ⟨a, u, -, hfail⟩
  · exact hx hfail
  · exact absurd hfail (hf a u e t)

theorem Succeeds.pure (a : α) : Succeeds (Pure.pure a : RouterM α) := by
  intro r e t h
  cases h

theorem Succeeds.modify (f : Router → Router) : Succeeds (modify f : RouterM Unit) := by
  intro r e t h
  cases h

theorem Succeeds.safe {x : RouterM α} (hx : Succeeds x) : Safe x :=
  fun r e t h => absurd h (hx r e t)

/-- No script is run, so no failure is one of a script. -/
def Scriptless (x : RouterM α) : Prop := ∀ ⦃r cause t⦄, x r ≠ .error (.execution cause) t

theorem Scriptless.bind {x : RouterM α} {f : α → RouterM β} (hx : Scriptless x)
    (hf : ∀ a, Scriptless (f a)) : Scriptless (x >>= f) := by
  intro r cause t h
  rcases bind_eq_error.mp h with hfail | ⟨a, u, -, hfail⟩
  · exact hx hfail
  · exact hf a hfail

theorem Succeeds.scriptless {x : RouterM α} (hx : Succeeds x) : Scriptless x :=
  fun r _ t h => hx r _ t h

/-! ## The parts -/

theorem requireAdmin_eq_ok {caller : Address} {action : Action} :
    requireAdmin caller action r = .ok () t ↔ caller = r.config.admin ∧ t = r := by
  unfold requireAdmin
  rw [bind_eq_ok]
  constructor
  · rintro ⟨u, v, hget, h⟩
    cases hget
    by_cases hadmin : caller = r.config.admin
    · rw [if_neg fun hne => hne hadmin] at h
      cases h
      exact ⟨hadmin, rfl⟩
    · rw [if_pos hadmin] at h
      cases h
  · rintro ⟨hadmin, rfl⟩
    refine ⟨t, t, rfl, ?_⟩
    rw [if_neg fun hne => hne hadmin]
    rfl

theorem reads_requireAdmin (caller : Address) (action : Action) :
    Reads (requireAdmin caller action) := by
  refine Reads.get.bind fun r => ?_
  by_cases hadmin : caller ≠ r.config.admin
  · rw [if_pos hadmin]
    exact Reads.throw _
  · rw [if_neg hadmin]
    exact Reads.pure _

theorem scriptless_requireAdmin (caller : Address) (action : Action) :
    Scriptless (requireAdmin caller action) := by
  intro r cause t h
  by_cases hadmin : caller = r.config.admin
  · rw [requireAdmin_eq_ok.mpr ⟨hadmin, rfl⟩] at h
    cases h
  · rcases bind_eq_error.mp h with hget | ⟨u, v, hget, hthrow⟩
    · cases hget
    · cases hget
      rw [if_pos hadmin] at hthrow
      cases hthrow

theorem updateRegistry_eq_ok {update : Registry → Except RegistryError Registry} :
    updateRegistry update r = .ok () t ↔
      ∃ registry, update r.registry = .ok registry ∧ t = { r with registry := registry } := by
  unfold updateRegistry
  rw [bind_eq_ok]
  constructor
  · rintro ⟨u, v, hget, h⟩
    cases hget
    cases hupdate : update r.registry with
    | ok registry =>
      rw [hupdate] at h
      cases h
      exact ⟨registry, rfl, rfl⟩
    | error e =>
      rw [hupdate] at h
      cases h
  · rintro ⟨registry, hupdate, rfl⟩
    refine ⟨r, r, rfl, ?_⟩
    rw [hupdate]
    rfl

theorem safe_updateRegistry (update : Registry → Except RegistryError Registry) :
    Safe (updateRegistry update) := by
  refine Reads.get.bind_safe fun r => ?_
  cases update r.registry with
  | ok registry => exact (Succeeds.modify _).safe
  | error e => exact (Reads.throw _).1

theorem scriptless_updateRegistry (update : Registry → Except RegistryError Registry) :
    Scriptless (updateRegistry update) := by
  intro r cause t h
  rcases bind_eq_error.mp h with hget | ⟨u, v, hget, hupdate⟩
  · cases hget
  · cases hget
    cases hregistry : update r.registry with
    | ok registry =>
      rw [hregistry] at hupdate
      cases hupdate
    | error e =>
      rw [hregistry] at hupdate
      cases hupdate

theorem token_eq_ok {asset : AssetId} {token : Address} :
    Router.token asset r = .ok token t ↔ r.registry.assetHandle? asset = some token ∧ t = r := by
  unfold Router.token
  rw [bind_eq_ok]
  constructor
  · rintro ⟨u, v, hget, h⟩
    cases hget
    cases hhandle : r.registry.assetHandle? asset with
    | some found =>
      rw [hhandle] at h
      cases h
      exact ⟨rfl, rfl⟩
    | none =>
      rw [hhandle] at h
      cases h
  · rintro ⟨hhandle, rfl⟩
    refine ⟨t, t, rfl, ?_⟩
    rw [hhandle]
    rfl

theorem reads_token (asset : AssetId) : Reads (Router.token asset) := by
  refine Reads.get.bind fun r => ?_
  cases r.registry.assetHandle? asset with
  | some token => exact Reads.pure _
  | none => exact Reads.throw _

theorem scriptless_token (asset : AssetId) : Scriptless (Router.token asset) := by
  intro r cause t h
  rcases bind_eq_error.mp h with hget | ⟨u, v, hget, htoken⟩
  · cases hget
  · cases hget
    cases hhandle : r.registry.assetHandle? asset with
    | some token =>
      rw [hhandle] at htoken
      cases htoken
    | none =>
      rw [hhandle] at htoken
      cases htoken

theorem onStore_eq_ok {script : Script ExecutionError α} {a : α} :
    onStore script r = .ok a t ↔
      ∃ store, script.run r.store = .ok a store ∧ t = { r with store := store } := by
  unfold onStore
  cases script.run r.store with
  | ok b store =>
    constructor
    · intro h
      cases h
      exact ⟨store, rfl, rfl⟩
    · rintro ⟨store, h, rfl⟩
      cases h
      rfl
  | error e store =>
    constructor
    · intro h
      cases h
    · rintro ⟨store, h, -⟩
      cases h

/-- A script on the store itself has to fail before it writes. -/
theorem safe_onStore {script : Script ExecutionError α}
    (hscript : ∀ {s t : Store} {e}, script.run s = .error e t → t = s) :
    Safe (onStore script) := by
  intro r e t h
  unfold onStore at h
  cases hrun : script.run r.store with
  | ok a store =>
    rw [hrun] at h
    cases h
  | error d store =>
    rw [hrun] at h
    cases h
    rw [hscript hrun]

theorem report_eq (event : RouterEvent) :
    report event r = .ok () { r with events := r.events ++ [event] } := rfl

theorem succeeds_report (event : RouterEvent) : Succeeds (report event) := Succeeds.modify _

end Crossnet.Router
