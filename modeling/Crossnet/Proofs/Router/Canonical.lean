import Crossnet.Proofs.Interpreter.Canonical
import Crossnet.Proofs.Program.Acceptance
import Crossnet.Proofs.Router.Ownership

/-!
# Calls on canonical stores

A call reads and writes the entries that it names, whether it ends well or fails
while it runs.  Where the store is canonical and no contract is registered, a call
finds no corrupt entry and leaves the store canonical.

A program can add owners, and the number of them is stored in 64 bits.  The `room`
that a call needs is how many it can add at most.

* `Call.named`, `touched`: the entries that a call names, and those of a run.
* `canonical_after`, `not_corruption_of_answer`: **a call leaves the store canonical
  and finds no corrupt entry.**
* `canonical_replay`: so do calls in a row.
-/

namespace Crossnet

/-- A call fails over an entry that cannot be read. -/
def RouterError.IsCorruption : RouterError → Prop
  | execution cause => cause.IsCorruption
  | _ => False

namespace Router

open ExecutionError (IsCorruption)
open Script (Ends)

variable {r t : Router} {caller : Address} {origin : Origin} {m : Moment}

/-! ## Entries that calls name -/

/-- What a holder has of an asset, as entries: one if the asset has a token. -/
def holding (r : Router) (asset : AssetId) (holder : Address) : List Identity :=
  ((r.registry.assetHandle? asset).map fun token => .balance token holder).toList

theorem mem_holding {asset : AssetId} {token : Address}
    (h : r.registry.assetHandle? asset = some token) (holder : Address) :
    .balance token holder ∈ r.holding asset holder := by
  rw [holding, h]
  exact .head _

/-- The entries that a call names: what is minted, and for an origin the interpreter's owners, what
its program receives and what the program's instructions name. -/
def Call.named (r : Router) : Call → List Identity
  | mint _ asset holder _ => r.holding asset holder
  | createInterpreter origin => [.owners origin.interpreterAddress]
  | runProgram caller origin bytes assets amounts =>
    .owners origin.interpreterAddress ::
      (((Interpreter.ofOrigin origin).receiveEffects (r.environment caller)
          (assets.zip amounts)).flatMap Effect.identities ++
        r.afterOpening caller origin bytes (assets.zip amounts) Interpreter.named)
  | _ => []

/-- How many owners a call can add to those that there are: a program adds no more than it has
bytes. -/
def Call.room : Call → Nat
  | runProgram _ _ bytes _ _ => bytes.length
  | _ => 0

namespace Moment

/-- Whether the call gets as far as the store. -/
def runs (m : Moment) : Bool :=
  match m.answer with
  | .ok _ => true
  | .error (.execution _) => true
  | .error _ => false

/-- The entries that a call names, if it gets as far as the store. -/
def named (m : Moment) : List Identity :=
  if m.runs then m.call.named m.before else []

theorem named_of_ok {answer : Answer} (h : m.answer = .ok answer) :
    m.named = m.call.named m.before := by
  rw [named, runs, h]
  rfl

theorem named_of_execution {cause : ExecutionError} (h : m.answer = .error (.execution cause)) :
    m.named = m.call.named m.before := by
  rw [named, runs, h]
  rfl

end Moment

/-- The call and the owners that are stored leave room for those that the call can add.  Owners are
stored with a 64-bit count, so they do wherever all of them fit into a 64-bit address space. -/
def Moment.Fits (m : Moment) : Prop :=
  m.call.room < 2 ^ 64 ∧ ∀ origin ∈ m.before.interpreters, ∀ owners,
    m.before.owners origin = .ok owners → owners.size + m.call.room < 2 ^ 64

/-- The entries that the calls of a run name. -/
def touched (r : Router) (calls : List Call) : List Identity :=
  (history r calls).flatMap Moment.named

theorem isEntry_of_mem_holding {asset : AssetId} {holder : Address} {i : Identity}
    (h : i ∈ r.holding asset holder) : i.IsEntry := by
  obtain ⟨token, -, rfl⟩ := Option.map_eq_some_iff.mp (Option.mem_toList.mp h)
  trivial

theorem Call.isEntry_of_mem_named {call : Call} {i : Identity} (h : i ∈ call.named r) :
    i.IsEntry := by
  cases call with
  | mint caller asset holder amount => exact isEntry_of_mem_holding h
  | createInterpreter origin =>
    obtain rfl := List.mem_singleton.mp h
    trivial
  | runProgram caller origin bytes assets amounts =>
    rcases List.mem_cons.mp h with rfl | h
    · trivial
    · rcases List.mem_append.mp h with h | h
      · exact Effect.isEntry_of_mem_flatMap h
      · obtain ⟨program, s, -, hmem⟩ := mem_afterOpening h
        exact Interpreter.isEntry_of_mem_named hmem
  | registerBridge => cases h
  | registerAsset => cases h
  | registerContract => cases h
  | addOwners => cases h
  | removeOwners => cases h
  | takeEvents => cases h

theorem isEntry_of_mem_touched {calls : List Call} {i : Identity} (h : i ∈ touched r calls) :
    i.IsEntry := by
  obtain ⟨m, -, hi⟩ := List.mem_flatMap.mp h
  unfold Moment.named at hi
  split at hi
  · exact Call.isEntry_of_mem_named hi
  · cases hi

/-! ## Calls on canonical stores -/

/-- The addresses of the interpreters that were created. -/
def addresses (r : Router) : Set Address :=
  {address | ∃ origin ∈ r.interpreters, origin.interpreterAddress = address}

theorem mem_addresses (h : r.hasInterpreter origin = true) :
    origin.interpreterAddress ∈ r.addresses :=
  ⟨origin, hasInterpreter_eq_true_iff.mp h, rfl⟩

theorem addresses_eq_insert
    (h : t.interpreters = if r.hasInterpreter origin then r.interpreters
      else origin :: r.interpreters) :
    t.addresses = insert origin.interpreterAddress r.addresses := by
  unfold addresses
  rw [h]
  cases hhas : r.hasInterpreter origin with
  | true => exact (Set.insert_eq_of_mem (mem_addresses hhas)).symm
  | false =>
    ext address
    show (∃ o ∈ origin :: r.interpreters, o.interpreterAddress = address) ↔
      address = origin.interpreterAddress ∨ ∃ o ∈ r.interpreters, o.interpreterAddress = address
    rw [List.exists_mem_cons_iff, eq_comm]

theorem addresses_created (r : Router) (origin : Origin) :
    (r.created origin).addresses = insert origin.interpreterAddress r.addresses := by
  refine addresses_eq_insert ?_
  unfold created
  split
  · rfl
  · rfl

variable {c : Census} {room wide : Nat}

section Calls

variable (hknows : ∀ token, r.registry.host.Knows token → token ∈ c.tokens)

include hknows

/-- The first owner and what comes in. -/
theorem keeps_opening {incoming : List (AssetId × UInt128)}
    (h : Canonical c r.addresses wide r.store) (hfirst : 1 + room < 2 ^ 64) (hle : room ≤ wide)
    (howners : .owners origin.interpreterAddress ∈ c.entries)
    (hreceived : ∀ i ∈ ((Interpreter.ofOrigin origin).receiveEffects (r.environment caller)
      incoming).flatMap Effect.identities, i ∈ c.entries) :
    (r.opening caller origin incoming).Ends IsCorruption r.store
      fun _ s => Canonical c (insert origin.interpreterAddress r.addresses) room s := by
  have hreceive : ∀ {s : Store},
      Canonical c (insert origin.interpreterAddress r.addresses) room s →
        ((Interpreter.ofOrigin origin).receive (r.environment caller) incoming).Ends IsCorruption s
          fun _ s => Canonical c (insert origin.interpreterAddress r.addresses) room s :=
    fun hs => Interpreter.keeps_receive hknows hs hreceived
  unfold opening
  cases hhas : r.hasInterpreter origin with
  | true =>
    refine hreceive ?_
    rw [Set.insert_eq_of_mem (mem_addresses hhas)]
    exact h.mono hle
  | false =>
    have hinit : (Owners.init origin.interpreterAddress origin.account).Ends IsCorruption r.store
        fun _ s => Canonical c (insert origin.interpreterAddress r.addresses) room s :=
      Ends.of_run (Owners.run_init _ _ _) (h.setFirst howners _ hfirst hle)
    exact hinit.bind fun _ _ _ hs => hreceive hs

/-- **A delivered program finds no corrupt entry**, where there is room for as many owners as it has
bytes. -/
theorem keeps_program {bytes : Bytes} {assets : List AssetId} {amounts : List UInt128}
    {program : Program} (hcontracts : r.registry.contracts = [])
    (haccept : Program.accept bytes = .ok program)
    (hnamed : ∀ i ∈ Call.named r (.runProgram caller origin bytes assets amounts), i ∈ c.entries)
    (hfits : bytes.length < 2 ^ 64) (h : Canonical c r.addresses bytes.length r.store) :
    (programScript (.ofOrigin origin) (r.environment caller) (!r.hasInterpreter origin) program
        (assets.zip amounts)).Ends IsCorruption r.store
      fun _ s => Canonical c (insert origin.interpreterAddress r.addresses) 0 s := by
  have hbytes : (Instruction.encodeAll program.instructions).length < bytes.length := by
    rw [(Program.accept_eq_ok_iff.mp haccept).2.1]
    exact program.length_encodeAll_lt
  rw [programScript_eq]
  have hopening : (r.opening caller origin (assets.zip amounts)).Ends IsCorruption r.store
      fun _ s => Canonical c (insert origin.interpreterAddress r.addresses)
        (Instruction.encodeAll program.instructions).length s :=
    keeps_opening hknows h (by omega) (by omega) (hnamed _ (.head _))
      fun i hi => hnamed i (.tail _ (List.mem_append_left _ hi))
  refine hopening.bind fun done s hrun hs => ?_
  refine Interpreter.keeps_steps hknows (contract?_eq_none hcontracts) (Set.mem_insert _ _)
    ⟨hs, fun i hi => hnamed i (.tail _ (List.mem_append_right _ ?_))⟩
  rw [afterOpening, haccept]
  dsimp only
  rw [Script.after_of_ok hrun]
  exact hi

end Calls

theorem Registry.mem_of_knows {registry : Registry} (hr : registry.Consistent) {token : Address}
    (h : registry.host.Knows token) : token ∈ registry.assets.map Prod.snd := by
  rcases h with ⟨asset, hhandle⟩ | htoken
  · exact List.mem_map_of_mem ((Registry.assetHandle?_eq_some_iff hr).mp hhandle)
  · obtain ⟨asset, hasset⟩ := Option.isSome_iff_exists.mp htoken
    have hhandle := (Registry.assetHandle?_eq_some_iff_assetId? hr).mpr hasset
    exact List.mem_map_of_mem ((Registry.assetHandle?_eq_some_iff hr).mp hhandle)

section Moments

variable (hcontracts : m.before.registry.contracts = [])
  (hknows : ∀ token, m.before.registry.host.Knows token → token ∈ c.tokens)
  (hnamed : ∀ i ∈ m.named, i ∈ c.entries) (hfits : m.call.room < 2 ^ 64)
  (h : Canonical c m.before.addresses m.call.room m.before.store)

include hcontracts hknows hnamed hfits h

/-- **A call leaves the store canonical.** -/
theorem canonical_after : Canonical c m.after.addresses 0 m.after.store := by
  have hroom : Canonical c m.before.addresses 0 m.before.store := h.mono (Nat.zero_le _)
  cases hanswer : m.answer with
  | error e =>
    have hafter : m.after = m.before := Call.result_of_error hanswer
    rw [hafter]
    exact hroom
  | ok answer =>
    rw [Moment.named_of_ok hanswer] at hnamed
    have hperforms : Performs m.before m.call answer m.after := Call.result_of_ok hanswer
    obtain ⟨r, call⟩ := m
    generalize Moment.after ⟨r, call⟩ = t at hperforms ⊢
    cases hperforms with
    | registerBridge => exact hroom
    | registerAsset => exact hroom
    | registerContract => exact hroom
    | mint _ htoken hcredit =>
      have hentry := hnamed _ (mem_holding htoken _)
      exact (hroom.ends_credit hentry (hknows _ (.inl ⟨_, htoken⟩)) _).of_run_ok hcredit
    | @createInterpreter origin =>
      rw [addresses_created]
      unfold created
      cases hhas : r.hasInterpreter origin with
      | true =>
        rw [Set.insert_eq_of_mem (mem_addresses hhas)]
        exact hroom
      | false => exact hroom.setFirst (hnamed _ (.head _)) _ (by decide) (Nat.le_refl _)
    | @runProgram caller origin bytes assets amounts program outcome store _ _ haccept _ hrun =>
      rw [addresses_eq_insert (t := r.delivered origin program outcome store) rfl]
      exact (keeps_program hknows hcontracts haccept hnamed hfits h).of_run_ok hrun
    | takeEvents => exact hroom

/-- **A call finds no corrupt entry.** -/
theorem not_corruption_of_answer {e : RouterError} (hanswer : m.answer = .error e) :
    ¬e.IsCorruption := by
  cases e with
  | execution cause =>
    rw [Moment.named_of_execution hanswer] at hnamed
    have hbreaks : Breaks m.before m.call cause := by
      unfold Moment.answer Call.result at hanswer
      cases hperform : m.call.perform m.before with
      | ok answer after =>
        rw [hperform] at hanswer
        cases hanswer
      | error e after =>
        rw [hperform] at hanswer
        cases hanswer
        exact breaks_of_perform hperform
    obtain ⟨r, call⟩ := m
    cases hbreaks with
    | mint htoken hcredit =>
      have hentry := hnamed _ (mem_holding htoken _)
      exact (h.ends_credit hentry (hknows _ (.inl ⟨_, htoken⟩)) _).of_run_error hcredit
    | runProgram haccept hrun =>
      exact (keeps_program hknows hcontracts haccept hnamed hfits h).of_run_error hrun
  | unauthorized => exact id
  | registry => exact id
  | unknownAsset => exact id
  | mismatchedAssets => exact id
  | unknownNetwork => exact id
  | zeroUnitScale => exact id
  | program => exact id

end Moments

/-- **Calls in a row leave the store canonical and find no corrupt entry.** -/
theorem canonical_replay {calls : List Call} (hr : r.registry.Consistent)
    (hcontracts : (replay r calls).2.registry.contracts = [])
    (htokens : ∀ token ∈ (replay r calls).2.registry.assets.map Prod.snd, token ∈ c.tokens)
    (htouched : ∀ i ∈ touched r calls, i ∈ c.entries)
    (hfits : ∀ m ∈ history r calls, m.Fits) (h : Canonical c r.addresses 0 r.store) :
    Canonical c (replay r calls).2.addresses 0 (replay r calls).2.store ∧
      ∀ m ∈ history r calls, ∀ e, m.answer = .error e → ¬e.IsCorruption := by
  induction calls generalizing r with
  | nil => exact ⟨h, fun m hm => absurd hm List.not_mem_nil⟩
  | cons call rest ih =>
    have hlater := (later_replay r (call :: rest)).registry
    have hnone : r.registry.contracts = [] := hlater.contracts_eq_nil hcontracts
    have hknows : ∀ token, r.registry.host.Knows token → token ∈ c.tokens := fun token hknown =>
      htokens token ((hlater.assets.map _).subset (Registry.mem_of_knows hr hknown))
    have hnamed : ∀ i ∈ Moment.named ⟨r, call⟩, i ∈ c.entries := fun i hi =>
      htouched i (List.mem_flatMap.mpr ⟨_, List.mem_cons_self, hi⟩)
    have hrest : ∀ i ∈ touched (Moment.after ⟨r, call⟩) rest, i ∈ c.entries := by
      intro i hi
      refine htouched i ?_
      rw [touched, history, List.flatMap_cons]
      exact List.mem_append_right _ hi
    obtain ⟨hshort, hsets⟩ := hfits ⟨r, call⟩ List.mem_cons_self
    have hroom : Canonical c r.addresses call.room r.store := by
      refine h.widen ?_
      rintro a ⟨origin, hcreated, rfl⟩ owners hset
      exact hsets origin hcreated owners (owners_eq_ok.mpr hset)
    have hafter := canonical_after (m := ⟨r, call⟩) hnone hknows hnamed hshort hroom
    have hnext : (Moment.after ⟨r, call⟩).registry.Consistent :=
      consistent_after (m := ⟨r, call⟩) hr
    obtain ⟨hlast, hanswers⟩ := ih hnext hcontracts htokens hrest
      (fun m hm => hfits m (List.mem_cons_of_mem _ hm)) hafter
    refine ⟨hlast, fun m hm e he => ?_⟩
    rcases List.mem_cons.mp hm with rfl | hm
    · exact not_corruption_of_answer hnone hknows hnamed hshort hroom he
    · exact hanswers m hm e he

end Router

end Crossnet
