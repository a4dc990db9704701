import Crossnet.Proofs.Router.Ownership

/-!
# A router that is opened on a store

A router keeps the owners of an interpreter in its store, but that there is the
interpreter only in its own list.  A router that is opened on the store of
another one finds the owners and no interpreter, so the first call that acts for
the origin creates the interpreter anew: the origin's account is its only owner
again.

* `owners_of_reopening`: **the owners of the first router stay until a call acts
  for the origin**, and make no difference after that.
* `owners_not_kept`: owners that are lost.
-/

namespace Crossnet.Router

variable {origin : Origin}

/-! ## New interpreters -/

theorem owners_created {r : Router} (hnew : r.hasInterpreter origin = false) :
    (r.created origin).owners origin = .ok (Std.ExtTreeSet.ofList [origin.account]) := by
  rw [owners_eq_ok, created, hnew]
  exact Owners.setAt?_setOwners r.store _ (size_founder_lt origin)

theorem owners_createInterpreter_of_new {r : Router}
    (hnew : r.hasInterpreter origin = false) :
    (replay r [.createInterpreter origin]).2.owners origin =
      .ok (Std.ExtTreeSet.ofList [origin.account]) := by
  rw [replay_cons_of_ok (Call.perform_eq_ok.mpr .createInterpreter)]
  exact owners_created hnew

/-! ## Two routers on one store -/

/-- A run of a new router, and a run of a router that is opened on what the first one stored. -/
structure Reopening where
  config : RouterConfig
  first : Router
  calls : List Call
  second : Router
  later : List Call
  created : create config Store.empty = .ok first
  opened : create config (replay first calls).2.store = .ok second

namespace Reopening

/-- The first router in the end. -/
def closed (R : Reopening) : Router := (replay R.first R.calls).2

/-- The second router in the end. -/
def last (R : Reopening) : Router := (replay R.second R.later).2

/-- Whether the second router creates the interpreter of the origin or runs a program for it. -/
def acted (R : Reopening) (origin : Origin) : Bool :=
  (history R.second R.later).any (Moment.actsFor origin)

/-- The owner calls of programs that the second router runs for the origin. -/
def ownerCalls (R : Reopening) (origin : Origin) : List OwnerCall :=
  (history R.second R.later).flatMap (Moment.ownerCalls origin)

/-- Nothing but the two routers themselves changes the owners of the origin's interpreter: there are
no contracts, no other interpreter has its address, no other entry has its key, and no set on the
way is too large to be stored. -/
structure Clear (R : Reopening) (origin : Origin) : Prop where
  contracts : R.closed.registry.contracts = []
  unique : AddressUnique origin R.closed.interpreters
  size : ∀ changes, changes <+: (history R.first R.calls).flatMap (Moment.ownerCalls origin) →
    (ownersAfter origin changes).size < 2 ^ 64
  laterContracts : R.last.registry.contracts = []
  laterUnique : AddressUnique origin R.last.interpreters
  laterSize : ∀ changes, changes <+: R.ownerCalls origin →
    (ownersAfter origin changes).size < 2 ^ 64
  sha : CollisionFree
    (used R.first R.calls ++ used R.second R.later ++ [.owners origin.interpreterAddress])

variable {R : Reopening}

theorem Clear.alone (h : R.Clear origin) :
    (Identity.owners origin.interpreterAddress).Alone
      (used R.first R.calls ++ used R.second R.later) := by
  refine h.sha.alone (fun i hi => ?_) (List.mem_singleton.mpr rfl) trivial
  rcases List.mem_append.mp hi with hi | hi
  · exact isEntry_of_mem_used hi
  · exact isEntry_of_mem_used hi

/-- The second router starts with the store of the first one and with nothing else of it. -/
theorem second_eq (R : Reopening) : R.second = ⟨R.config, .empty, [], R.closed.store, []⟩ :=
  (create_eq_ok.mp R.opened).2

theorem owners_closed (h : R.Clear origin) :
    R.closed.owners origin = .ok (ownersOf origin (history R.first R.calls)) :=
  owners_replay R.created h.contracts h.unique
    (h.alone.mono (List.subset_append_left _ _)) h.size

theorem size_ownersOf_lt (h : R.Clear origin) :
    (ownersOf origin (history R.first R.calls)).size < 2 ^ 64 := by
  unfold ownersOf
  split
  · exact h.size _ List.prefix_rfl
  · exact Nat.two_pow_pos 64

theorem owners_second (R : Reopening) (origin : Origin) :
    R.second.owners origin = R.closed.owners origin := by
  rw [second_eq]
  rfl

theorem owners_last (h : R.Clear origin) :
    R.last.owners origin =
      .ok (ownersFrom origin (ownersOf origin (history R.first R.calls))
        (history R.second R.later)) := by
  have hnew : R.second.hasInterpreter origin = false := by
    rw [second_eq]
    rfl
  have hstored : Owners.setAt? R.second.store (Owners.key origin.interpreterAddress) =
      some (ownersOf origin (history R.first R.calls)) :=
    owners_eq_ok.mp ((R.owners_second origin).trans (owners_closed h))
  exact owners_replay_of_new hnew hstored (size_ownersOf_lt h) h.laterContracts h.laterUnique
    (h.alone.mono (List.subset_append_right _ _)) h.laterSize

end Reopening

/-- **The owners of the first router stay until a call of the second one acts for the origin.**
After that they are the origin's account and the owner calls on the second router, whatever they
were before.  So without owner calls on the second router they stay exactly where no call acts for
the origin or the account was the only owner. -/
theorem owners_of_reopening {R : Reopening} (h : R.Clear origin) :
    R.second.owners origin = R.closed.owners origin ∧
      R.last.owners origin =
        (if R.acted origin then .ok (ownersAfter origin (R.ownerCalls origin))
          else R.closed.owners origin) ∧
      (R.ownerCalls origin = [] →
        (R.last.owners origin = R.closed.owners origin ↔
          R.acted origin = false ∨
            R.closed.owners origin = .ok (Std.ExtTreeSet.ofList [origin.account]))) := by
  have hlast : R.last.owners origin =
      if R.acted origin then .ok (ownersAfter origin (R.ownerCalls origin))
        else R.closed.owners origin := by
    rw [R.owners_last h, ownersFrom, R.owners_closed h]
    unfold Reopening.acted Reopening.ownerCalls
    split <;> rfl
  refine ⟨R.owners_second origin, hlast, fun hnone => ?_⟩
  have hfirst : ownersAfter origin [] = Std.ExtTreeSet.ofList [origin.account] := rfl
  rw [hlast, hnone, hfirst]
  cases R.acted origin with
  | true => simp [eq_comm]
  | false => simp

/-- An origin whose account is the first owner of its interpreter. -/
def founder : Origin := ⟨⟨1⟩, .zero⟩

/-- A run that creates an interpreter, and one that creates it once more. -/
def twice : Reopening where
  config := fresh.config
  first := fresh
  calls := [.createInterpreter founder]
  second := ⟨fresh.config, .empty, [], (replay fresh [.createInterpreter founder]).2.store, []⟩
  later := [.createInterpreter founder]
  created := create_fresh
  opened := create_eq_ok.mpr ⟨by decide, rfl⟩

theorem clear_twice : twice.Clear founder where
  contracts := rfl
  unique _ hmem _ := List.mem_singleton.mp hmem
  size changes hchanges := by
    obtain rfl := List.prefix_nil.mp hchanges
    exact size_founder_lt founder
  laterContracts := rfl
  laterUnique _ hmem _ := List.mem_singleton.mp hmem
  laterSize changes hchanges := by
    obtain rfl := List.prefix_nil.mp hchanges
    exact size_founder_lt founder
  sha := collisionFree_replicate 3 (.owners founder.interpreterAddress)

/-- An address that becomes the second owner. -/
def partner : Address := ⟨FixedBytes.replicate 20 1⟩

/-- The program that makes it an owner. -/
def invitation : Program := ⟨[], [Interpreter.toSelf (Wire.encode (OwnerCall.add [partner]))]⟩

/-- A run that creates the interpreter and makes the partner an owner. -/
def partnership : List Call :=
  [.registerBridge .zero .zero ⟨1⟩, .createInterpreter founder,
    .runProgram .zero founder invitation.toWire [] []]

theorem accept_invitation : Program.accept invitation.toWire = .ok invitation :=
  Interpreter.accept_toSelf (by decide)

/-- The owners in the end of the run. -/
def partners : AddressSet := (OwnerCall.add [partner]).change (.ofList [founder.account])

/-- The router when the interpreter is there and the program is not delivered yet. -/
def founded : Router := bridged.created founder

/-- What the invitation does. -/
theorem arrives_invitation :
    Arrives founded .zero founder invitation [] [] (.answered [])
      [.manage founder.interpreterAddress (.add [partner])]
      (Owners.setOwners founded.store (Owners.key founder.interpreterAddress) partners) where
  bridge := rfl
  lengths := rfl
  accepted := accept_invitation
  known _ hasset := absurd hasset List.not_mem_nil
  goes := by
    have howners : founded.owners founder = .ok (.ofList [founder.account]) := owners_created rfl
    have hdecode : (Wire.decode (Wire.encode (OwnerCall.add [partner])) : Except DecodeError _) =
        .ok (OwnerCall.add [partner]) := rfl
    have hset : Owners.setAt? founded.store
        (Owners.key (Interpreter.ofOrigin founder).address) = some _ := owners_eq_ok.mp howners
    have hadd := Interpreter.does_toSelf (founded.environment .zero) hdecode hset
    exact ⟨founded.store, rfl, .cons hadd (.nil _ _ _)⟩

theorem replay_partnership :
    (replay fresh partnership).2 = founded.delivered founder invitation (.answered [])
      (Owners.setOwners founded.store (Owners.key founder.interpreterAddress) partners) := by
  have hbridge : (Call.registerBridge .zero .zero ⟨1⟩).perform fresh = .ok .done bridged := rfl
  have hcreate : (Call.createInterpreter founder).perform bridged =
      .ok (.address founder.interpreterAddress) founded := Call.perform_eq_ok.mpr .createInterpreter
  rw [partnership, replay_cons_of_ok hbridge, replay_cons_of_ok hcreate,
    replay_cons_of_ok arrives_invitation.perform_eq, replay_nil]

theorem effects_partnership : (history fresh partnership).flatMap Moment.effects =
    [.found founder.interpreterAddress founder.account,
      .manage founder.interpreterAddress (.add [partner])] := by
  have hhistory : history fresh partnership =
      [⟨fresh, .registerBridge .zero .zero ⟨1⟩⟩, ⟨bridged, .createInterpreter founder⟩,
        ⟨founded, .runProgram .zero founder invitation.toWire [] []⟩] := rfl
  rw [hhistory, List.flatMap_cons, List.flatMap_cons, List.flatMap_cons, List.flatMap_nil,
    arrives_invitation.effects_eq]
  rfl

theorem owners_partnership : (replay fresh partnership).2.owners founder = .ok partners := by
  rw [replay_partnership, owners_eq_ok]
  exact Owners.setAt?_setOwners founded.store _ (size_joined_lt founder partner)

theorem partners_ne : partners ≠ .ofList [founder.account] := by
  intro heq
  have hpartner : partner ∈ partners := Std.ExtTreeSet.mem_insert_self
  rw [heq, Std.ExtTreeSet.mem_ofList] at hpartner
  exact absurd hpartner (by decide)

/-- The run with two owners, and one that creates the interpreter once more. -/
def parting : Reopening where
  config := fresh.config
  first := fresh
  calls := partnership
  second := ⟨fresh.config, .empty, [], (replay fresh partnership).2.store, []⟩
  later := [.createInterpreter founder]
  created := create_fresh
  opened := create_eq_ok.mpr ⟨by decide, rfl⟩

theorem unique_partnership :
    AddressUnique founder (replay fresh partnership).2.interpreters := by
  rw [replay_partnership]
  exact fun o ho _ => List.mem_singleton.mp ho

theorem ownerCalls_partnership :
    (history fresh partnership).flatMap (Moment.ownerCalls founder) = [.add [partner]] := by
  rw [← filterMap_history unique_partnership, effects_partnership,
    List.filterMap_cons_none (Effect.ownerCall?_found _ _),
    List.filterMap_cons_some (Effect.ownerCall?_manage _ _), List.filterMap_nil]

theorem closed_parting : parting.closed = (replay fresh partnership).2 := by
  have hfirst : parting.first = fresh := rfl
  have hcalls : parting.calls = partnership := rfl
  rw [Reopening.closed, hfirst, hcalls]

theorem clear_parting : parting.Clear founder where
  contracts := by
    rw [closed_parting, replay_partnership]
    rfl
  unique := by
    rw [closed_parting]
    exact unique_partnership
  size changes hchanges := by
    have hprefix : changes <+: [.add [partner]] := ownerCalls_partnership ▸ hchanges
    exact size_ownersAfter_lt hprefix
  laterContracts := rfl
  laterUnique _ hmem _ := List.mem_singleton.mp hmem
  laterSize changes hchanges := by
    obtain rfl := List.prefix_nil.mp hchanges
    exact size_founder_lt founder
  sha := by
    have hused : used fresh partnership =
        List.replicate 2 (.owners founder.interpreterAddress) := by
      rw [used, effects_partnership]
      rfl
    have hall : used parting.first parting.calls ++ used parting.second parting.later ++
        [.owners founder.interpreterAddress] =
          List.replicate 4 (.owners founder.interpreterAddress) := by
      show used fresh partnership ++ _ ++ _ = _
      rw [hused]
      rfl
    rw [hall]
    exact collisionFree_replicate 4 _

/-- Where the account was the only owner nothing is lost, and the partner is. -/
theorem owners_of_reopening_founder :
    (twice.last.owners founder = .ok (.ofList [founder.account]) ∧
      twice.last.owners founder = twice.closed.owners founder) ∧
    parting.second.owners founder = .ok partners ∧
      parting.last.owners founder = .ok (.ofList [founder.account]) ∧
      parting.last.owners founder ≠ parting.closed.owners founder := by
  obtain ⟨-, hlast, hkept⟩ := owners_of_reopening clear_twice
  have hclosed : twice.closed.owners founder = .ok (.ofList [founder.account]) :=
    owners_createInterpreter_of_new rfl
  obtain ⟨hstored, hparted, hlost⟩ := owners_of_reopening clear_parting
  have htwo : parting.closed.owners founder = .ok partners := by
    rw [closed_parting]
    exact owners_partnership
  refine ⟨⟨hlast, (hkept rfl).mpr (.inr hclosed)⟩, hstored.trans htwo, hparted, fun hsame => ?_⟩
  rcases (hlost rfl).mp hsame with hacted | honly
  · cases hacted
  · rw [htwo] at honly
    exact partners_ne (Except.ok.inj honly)

/-- **Owners are lost.**  The first router created the interpreter and its owners are two; a router
that is opened on its store creates the interpreter once more, and one of them is left. -/
theorem owners_not_kept :
    (replay fresh partnership).2.hasInterpreter founder = true ∧
      (replay fresh partnership).2.registry.contracts = [] ∧
      ∃ second, create fresh.config (replay fresh partnership).2.store = .ok second ∧
        (replay second [.createInterpreter founder]).2.owners founder ≠
          (replay fresh partnership).2.owners founder := by
  rw [owners_partnership, replay_partnership]
  refine ⟨rfl, rfl, _, create_eq_ok.mpr ⟨by decide, rfl⟩, ?_⟩
  rw [owners_createInterpreter_of_new rfl]
  intro heq
  exact partners_ne (Except.ok.inj heq).symm

end Crossnet.Router
