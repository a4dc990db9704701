import Crossnet.Proofs.Identity
import Crossnet.Proofs.Relayer.AtMostOnce

/-!
# Records for different networks

What becomes of a record is decided by two things: whether its key is noted, and
the router of its target.  A delivery changes these two and nothing else.  So
where every network has a router of its own, and records for different networks
have different keys, such records do not disturb each other: a list of records
may be relayed in any order that keeps the order for each network.  A key that
was noted before may be shared, for all its records are duplicates.

* `attempt_eq`: an attempt, told by the note and the router that it finds.
* `attempt_comm`: **attempts for different networks commute.**
* `attempt_relayAll`: a record may be relayed before records for other networks.
* `interleavings_agree`: **the interleavings of records for each network end
  alike**, and each record is answered alike in all of them.
-/

namespace Crossnet

/-- Every connected network has a router of its own. -/
def Relayer.Separate (r : Relayer) : Prop :=
  ∀ a b place, r.route? a = some place → r.route? b = some place → a = b

theorem Relayer.mem_routes_of_route? {r : Relayer} {network : NetworkId} {place : Nat}
    (h : r.route? network = some place) : (network, place) ∈ r.routes := by
  obtain ⟨entry, hfind, rfl⟩ := Option.map_eq_some_iff.mp h
  have hnetwork : entry.1 = network := by simpa using List.find?_some hfind
  rw [← hnetwork]
  exact List.mem_of_find?_eq_some hfind

theorem Relayer.note_comm (r : Relayer) (a b : SpawnRecord) :
    (r.note a).note b = (r.note b).note a := by
  have hkeys : (r.delivered.insert a.deliveryKey).insert b.deliveryKey =
      (r.delivered.insert b.deliveryKey).insert a.deliveryKey := by
    refine Std.ExtTreeSet.ext_mem fun key => ?_
    simp only [Std.ExtTreeSet.mem_insert]
    exact or_left_comm
  unfold note
  dsimp only
  rw [hkeys]

theorem Relayer.isDelivered_congr (r : Relayer) {a b : SpawnRecord}
    (hkey : a.deliveryKey = b.deliveryKey) : r.isDelivered a = r.isDelivered b := by
  unfold isDelivered
  rw [hkey]

/-- The note of another record says nothing new of a record, unless it has a new key and shares
it. -/
theorem Relayer.isDelivered_note_of_clear {r : Relayer} {a b : SpawnRecord}
    (hkey : a.deliveryKey = b.deliveryKey → r.isDelivered a = true) :
    (r.note b).isDelivered a = r.isDelivered a := by
  rw [Bool.eq_iff_iff, isDelivered_note]
  constructor
  · rintro (hdelivered | heq)
    · exact hdelivered
    · exact hkey heq.symm
  · intro hdelivered
    exact .inl hdelivered

namespace Mesh

/-! ## An attempt, told by what it finds -/

/-- The answer to a record, and the router that its delivery leaves in which place, if it is
delivered. -/
def verdict (m : Mesh) (record : SpawnRecord) :
    Except RouterError (Option Outcome) × Option (Nat × Router) :=
  if m.relayer.isDelivered record then (.ok none, none)
  else
    match m.router? record.target with
    | none => (.error (.unknownNetwork record.target), none)
    | some (place, router) =>
      match Router.runProgram m.relayer.bridge record.origin record.program record.assets
          record.amounts router with
      | .ok outcome after => (.ok (some outcome), some (place, after))
      | .error e _ => (.error e, none)

/-- The mesh with a record noted and a router put into its place, if there is one to put. -/
def settle (m : Mesh) (record : SpawnRecord) : Option (Nat × Router) → Mesh
  | none => m
  | some (place, router) => ⟨m.relayer.note record, m.routers.set place router⟩

/-- **An attempt, told by the note and the router that it finds.** -/
theorem attempt_eq (m : Mesh) (record : SpawnRecord) :
    m.attempt record =
      (⟨record, m, (m.verdict record).1⟩, m.settle record (m.verdict record).2) := by
  have hcases := relays m record
  unfold attempt verdict
  generalize relay record m = result at hcases
  cases hcases with
  | duplicate hdelivered =>
    rw [if_pos hdelivered]
    rfl
  | unconnected hnew hrouter =>
    rw [hnew, if_neg Bool.false_ne_true, hrouter]
    rfl
  | delivered hnew hrouter hrun =>
    rw [hnew, if_neg Bool.false_ne_true, hrouter]
    dsimp only
    rw [hrun]
    rfl
  | refused hnew hrouter hrun =>
    rw [hnew, if_neg Bool.false_ne_true, hrouter]
    dsimp only
    rw [hrun]
    rfl

/-- A delivery leaves a router in the place of the record's target. -/
theorem route?_of_verdict {m : Mesh} {record : SpawnRecord} {place : Nat} {router : Router}
    (h : (m.verdict record).2 = some (place, router)) :
    m.relayer.route? record.target = some place := by
  unfold verdict at h
  split at h
  · cases h
  · split at h
    · cases h
    next found there hrouter =>
      have hroute : m.relayer.route? record.target = some found := by
        obtain ⟨at', hroute, hnext⟩ := Option.bind_eq_some_iff.mp hrouter
        obtain ⟨_, -, hdone⟩ := Option.bind_eq_some_iff.mp hnext
        cases hdone
        exact hroute
      split at h
      · cases h
        exact hroute
      · cases h

/-! ## Two records -/

section Two

variable {m : Mesh} {a b : SpawnRecord}

/-- The records are for different networks, and do not share a key that is new. -/
structure Clear (m : Mesh) (a b : SpawnRecord) : Prop where
  target : a.target ≠ b.target
  key : a.deliveryKey = b.deliveryKey → m.relayer.isDelivered a = true

theorem Clear.symm (h : m.Clear a b) : m.Clear b a where
  target := h.target.symm
  key heq := (m.relayer.isDelivered_congr heq).trans (h.key heq.symm)

/-- What was settled for another network does not change the verdict on a record. -/
theorem verdict_settle (hclear : m.Clear a b) {change : Option (Nat × Router)}
    (hplace : ∀ place router, change = some (place, router) →
      m.relayer.route? a.target ≠ some place) :
    (m.settle b change).verdict a = m.verdict a := by
  cases change with
  | none => rfl
  | some entry =>
    obtain ⟨place, router⟩ := entry
    have hrouter : (m.settle b (some (place, router))).router? a.target = m.router? a.target := by
      have hother := hplace place router rfl
      unfold router?
      show (m.relayer.route? a.target).bind (fun p =>
        ((m.routers.set place router)[p]?).bind fun there => some (p, there)) =
          (m.relayer.route? a.target).bind fun p =>
            (m.routers[p]?).bind fun there => some (p, there)
      cases hroute : m.relayer.route? a.target with
      | none => rfl
      | some p =>
        have hne : place ≠ p := by
          rintro rfl
          exact hother hroute
        simp only [Option.bind_some, List.getElem?_set_ne hne]
    have hnoted : (m.settle b (some (place, router))).relayer.isDelivered a =
        m.relayer.isDelivered a := Relayer.isDelivered_note_of_clear hclear.key
    unfold verdict
    rw [hnoted, hrouter]
    rfl

theorem settle_comm {x y : Option (Nat × Router)}
    (hplaces : ∀ p q router after, x = some (p, router) → y = some (q, after) → p ≠ q) :
    (m.settle a x).settle b y = (m.settle b y).settle a x := by
  cases x with
  | none => rfl
  | some entry =>
    obtain ⟨p, router⟩ := entry
    cases y with
    | none => rfl
    | some entry =>
      obtain ⟨q, after⟩ := entry
      have hne := hplaces p q router after rfl rfl
      show Mesh.mk ((m.relayer.note a).note b) ((m.routers.set p router).set q after) =
        Mesh.mk ((m.relayer.note b).note a) ((m.routers.set q after).set p router)
      rw [Relayer.note_comm, List.set_comm _ _ hne]

/-- **Attempts for different networks commute.**  Each is answered as it would be without the
other. -/
theorem attempt_comm (hsep : m.relayer.Separate) (hclear : m.Clear a b) :
    ((m.attempt b).2.attempt a).1.answer = (m.attempt a).1.answer ∧
      ((m.attempt a).2.attempt b).1.answer = (m.attempt b).1.answer ∧
      ((m.attempt b).2.attempt a).2 = ((m.attempt a).2.attempt b).2 := by
  have hplaces : ∀ p q router after, (m.verdict a).2 = some (p, router) →
      (m.verdict b).2 = some (q, after) → p ≠ q := by
    rintro p q router after ha hb rfl
    exact hclear.target (hsep _ _ _ (route?_of_verdict ha) (route?_of_verdict hb))
  have hafter : (m.settle b (m.verdict b).2).verdict a = m.verdict a := by
    refine verdict_settle hclear fun place router hb hroute => ?_
    exact hclear.target (hsep _ _ _ hroute (route?_of_verdict hb))
  have hbefore : (m.settle a (m.verdict a).2).verdict b = m.verdict b := by
    refine verdict_settle hclear.symm fun place router ha hroute => ?_
    exact hclear.target (hsep _ _ _ (route?_of_verdict ha) hroute)
  simp only [attempt_eq, hafter, hbefore]
  exact ⟨trivial, trivial, (settle_comm hplaces).symm⟩

theorem separate_attempt (hsep : m.relayer.Separate) (record : SpawnRecord) :
    (m.attempt record).2.relayer.Separate := by
  rw [attempt_eq]
  unfold settle
  split
  · exact hsep
  · exact hsep

/-- Notes stay, so records that are clear of each other stay so. -/
theorem Clear.attempt (h : m.Clear a b) (record : SpawnRecord) :
    (m.attempt record).2.Clear a b where
  target := h.target
  key heq := (isDelivered_after ⟨m, .relay record⟩ a).mpr (.inl (h.key heq))

end Two

/-! ## Lists of records -/

/-- The mesh after records were relayed in order. -/
def relayAll (m : Mesh) (records : List SpawnRecord) : Mesh := replay m (records.map .relay)

/-- Records and how they are answered when they are relayed in order. -/
def answers (m : Mesh) (records : List SpawnRecord) :
    List (SpawnRecord × Except RouterError (Option Outcome)) :=
  (attempts m (records.map .relay)).map fun a => (a.record, a.answer)

/-- The entries of a list of answers that are for a network. -/
def answersFor (m : Mesh) (records : List SpawnRecord) (network : NetworkId) :
    List (SpawnRecord × Except RouterError (Option Outcome)) :=
  (m.answers records).filter fun entry => entry.1.target = network

section Lists

variable {m : Mesh} {a : SpawnRecord} {xs ys : List SpawnRecord}

theorem relayAll_cons (m : Mesh) (a : SpawnRecord) (xs : List SpawnRecord) :
    m.relayAll (a :: xs) = (m.attempt a).2.relayAll xs := rfl

theorem answers_cons (m : Mesh) (a : SpawnRecord) (xs : List SpawnRecord) :
    m.answers (a :: xs) = (a, (m.attempt a).1.answer) :: (m.attempt a).2.answers xs := by
  have hrecord : (m.attempt a).1.record = a := attempt_record m a
  unfold answers
  rw [List.map_cons, attempts_relay, List.map_cons, hrecord]

theorem relayAll_append (m : Mesh) (xs ys : List SpawnRecord) :
    m.relayAll (xs ++ ys) = (m.relayAll xs).relayAll ys := by
  unfold relayAll replay
  rw [List.map_append, List.foldl_append]

theorem answers_append (m : Mesh) (xs ys : List SpawnRecord) :
    m.answers (xs ++ ys) = m.answers xs ++ (m.relayAll xs).answers ys := by
  induction xs generalizing m with
  | nil => rfl
  | cons a rest ih =>
    rw [List.cons_append, answers_cons, answers_cons, ih, relayAll_cons]
    rfl

/-- The answers are those of the records, in order. -/
theorem map_fst_answers (m : Mesh) (xs : List SpawnRecord) :
    (m.answers xs).map Prod.fst = xs := by
  induction xs generalizing m with
  | nil => rfl
  | cons a rest ih => rw [answers_cons, List.map_cons, ih]

/-- **A record may be relayed before records for other networks.**  It is answered alike and so are
they, and in the end the mesh is the same. -/
theorem attempt_relayAll (hsep : m.relayer.Separate) (hclear : ∀ b ∈ xs, m.Clear a b) :
    ((m.relayAll xs).attempt a).1.answer = (m.attempt a).1.answer ∧
      (m.attempt a).2.answers xs = m.answers xs ∧
      ((m.relayAll xs).attempt a).2 = (m.attempt a).2.relayAll xs := by
  induction xs generalizing m with
  | nil => exact ⟨rfl, rfl, rfl⟩
  | cons b rest ih =>
    obtain ⟨hafter, hbefore, hmesh⟩ := attempt_comm hsep (hclear b List.mem_cons_self)
    obtain ⟨hlater, hrest, hlast⟩ := ih (separate_attempt hsep b)
      fun c hc => (hclear c (List.mem_cons_of_mem _ hc)).attempt b
    refine ⟨hlater.trans hafter, ?_, ?_⟩
    · rw [answers_cons, answers_cons, hbefore, ← hmesh, hrest]
    · rw [relayAll_cons, relayAll_cons, hlast, hmesh]

/-- What is relayed for other networks first does not matter. -/
theorem relay_front (hsep : m.relayer.Separate) (hclear : ∀ b ∈ xs, m.Clear a b) :
    m.relayAll (xs ++ a :: ys) = m.relayAll (a :: (xs ++ ys)) ∧
      ∀ network, m.answersFor (xs ++ a :: ys) network =
        m.answersFor (a :: (xs ++ ys)) network := by
  obtain ⟨hanswer, hfront, hmesh⟩ := attempt_relayAll hsep hclear
  constructor
  · rw [relayAll_append, relayAll_cons, relayAll_cons, relayAll_append, hmesh]
  · intro network
    unfold answersFor
    rw [answers_append, answers_cons, answers_cons, answers_append, hanswer, hfront, hmesh]
    simp only [List.filter_append, List.filter_cons]
    by_cases htarget : a.target = network
    · -- none of the records in front is for this network
      have hnone : (m.answers xs).filter (fun entry => entry.1.target = network) = [] := by
        refine List.filter_eq_nil_iff.mpr fun entry hentry heq => ?_
        have hmem : entry.1 ∈ xs := by
          rw [← map_fst_answers m xs]
          exact List.mem_map_of_mem hentry
        exact (hclear _ hmem).target (htarget.trans (of_decide_eq_true heq).symm)
      rw [hnone]
      simp
    · simp [htarget]

/-! ## Interleavings -/

/-- Two lists have the same records for each network, in the same order. -/
def Interleave (xs ys : List SpawnRecord) : Prop :=
  ∀ network, xs.filter (fun r => r.target = network) = ys.filter (fun r => r.target = network)

theorem Interleave.subset (h : Interleave xs ys) : ys ⊆ xs := by
  intro b hb
  have hmem : b ∈ ys.filter (fun r => r.target = b.target) :=
    List.mem_filter.mpr ⟨hb, decide_eq_true rfl⟩
  rw [← h] at hmem
  exact (List.mem_filter.mp hmem).1

/-- The first record of the one list stands in the other one behind records for other networks
only, and what is left of the two lists interleaves again. -/
theorem Interleave.cons (h : Interleave (a :: xs) ys) :
    ∃ front back, ys = front ++ a :: back ∧ (∀ b ∈ front, a.target ≠ b.target) ∧
      Interleave xs (front ++ back) := by
  have hfirst : a :: xs.filter (fun r => r.target = a.target) =
      ys.filter (fun r => r.target = a.target) := by
    rw [← h, List.filter_cons, if_pos (decide_eq_true rfl)]
  obtain ⟨front, back, rfl, hfront, -, -⟩ := List.filter_eq_cons_iff.mp hfirst.symm
  have hother : ∀ b ∈ front, a.target ≠ b.target := by
    intro b hb heq
    exact hfront b hb (decide_eq_true heq.symm)
  refine ⟨front, back, rfl, hother, fun network => ?_⟩
  have hnetwork := h network
  rw [List.filter_append, List.filter_cons, List.filter_cons] at hnetwork
  rw [List.filter_append]
  by_cases htarget : a.target = network
  · have hnone : front.filter (fun r => r.target = network) = [] := by
      refine List.filter_eq_nil_iff.mpr fun b hb heq => ?_
      exact hother b hb (htarget.trans (of_decide_eq_true heq).symm)
    rw [if_pos (decide_eq_true htarget), if_pos (decide_eq_true htarget), hnone] at hnetwork
    rw [hnone]
    exact (List.cons.inj hnetwork).2
  · rw [if_neg (fun hp => htarget (of_decide_eq_true hp)),
      if_neg (fun hp => htarget (of_decide_eq_true hp))] at hnetwork
    exact hnetwork

/-- **The interleavings of records for each network end alike.**  Let every connected network have
a router of its own, and let records for different networks have different keys, those apart that
are noted already.  Relaying the one list or the other leaves the same notes and the same routers,
and for each network the records are answered alike. -/
theorem interleavings_agree (hsep : m.relayer.Separate) (hsame : Interleave xs ys)
    (hkeys : ∀ a ∈ xs, ∀ b ∈ xs, a.target ≠ b.target →
      a.deliveryKey = b.deliveryKey → m.relayer.isDelivered a = true) :
    m.relayAll xs = m.relayAll ys ∧
      ∀ network, m.answersFor xs network = m.answersFor ys network := by
  -- The first record of the one list is moved to the front of the other one, past records for
  -- other networks, and what the lists have left interleaves again.
  induction xs generalizing m ys with
  | nil =>
    obtain rfl := List.subset_nil.mp hsame.subset
    exact ⟨rfl, fun _ => rfl⟩
  | cons a rest ih =>
    have hsubset := hsame.subset
    obtain ⟨front, back, rfl, hfront, hrest⟩ := hsame.cons
    have hclear : ∀ b ∈ front, m.Clear a b := by
      intro b hb
      have hmem : b ∈ a :: rest := hsubset (List.mem_append_left _ hb)
      exact ⟨hfront b hb, hkeys a List.mem_cons_self b hmem (hfront b hb)⟩
    have hlater : ∀ b ∈ rest, ∀ c ∈ rest, b.target ≠ c.target →
        b.deliveryKey = c.deliveryKey → (m.attempt a).2.relayer.isDelivered b = true := by
      intro b hb c hc htarget
      have hbefore : m.Clear b c :=
        ⟨htarget, hkeys b (List.mem_cons_of_mem _ hb) c (List.mem_cons_of_mem _ hc) htarget⟩
      exact (hbefore.attempt a).key
    have hmoved : m.relayAll (front ++ a :: back) = m.relayAll (a :: (front ++ back)) ∧
        ∀ network, m.answersFor (front ++ a :: back) network =
          m.answersFor (a :: (front ++ back)) network := relay_front hsep hclear
    obtain ⟨hmesh, hanswers⟩ := hmoved
    obtain ⟨hlast, hnext⟩ := ih (separate_attempt hsep a) hrest hlater
    refine ⟨?_, fun network => ?_⟩
    · rw [hmesh, relayAll_cons, relayAll_cons, hlast]
    · have hrestOf := hnext network
      rw [hanswers]
      unfold answersFor at hrestOf ⊢
      rw [answers_cons, answers_cons, List.filter_cons, List.filter_cons, hrestOf]

end Lists

/-- The record of `Router.sender`, for another network. -/
def elsewhere : SpawnRecord := { Router.sent with target := ⟨6⟩ }

/-- The routers of `twins`, each connected for a network. -/
def forked : Mesh :=
  { twins with relayer := (twins.relayer.connect ⟨5⟩ 0).connect ⟨6⟩ 1 }

theorem separate_forked : forked.relayer.Separate := by
  intro a b place ha hb
  have hroutes : forked.relayer.routes = [(⟨6⟩, 1), (⟨5⟩, 0)] := rfl
  have hx := Relayer.mem_routes_of_route? ha
  have hy := Relayer.mem_routes_of_route? hb
  rw [hroutes] at hx hy
  simp only [List.mem_cons, Prod.mk.injEq, List.not_mem_nil, or_false] at hx hy
  rcases hx with ⟨rfl, rfl⟩ | ⟨rfl, rfl⟩
  · rcases hy with ⟨rfl, -⟩ | ⟨-, hplace⟩
    · rfl
    · exact absurd hplace (by decide)
  · rcases hy with ⟨-, hplace⟩ | ⟨rfl, -⟩
    · exact absurd hplace (by decide)
    · rfl

theorem deliveryKey_elsewhere_ne : elsewhere.deliveryKey ≠ Router.sent.deliveryKey := by
  have hnodup : ([Identity.delivery elsewhere.origin elsewhere.target elsewhere.salt,
      .delivery Router.sent.origin Router.sent.target Router.sent.salt].map
        Identity.digest).Nodup := Identity.nodup_digest (by decide +kernel)
  intro hkey
  exact (List.nodup_cons.mp hnodup).1 (List.mem_singleton.mpr hkey)

/-- A record for one network is relayed between a record for the other and its duplicate, or before
both. -/
theorem interleavings_agree_forked :
    forked.relayAll [Router.sent, elsewhere, Router.sent] =
        forked.relayAll [elsewhere, Router.sent, Router.sent] ∧
      ∀ network, forked.answersFor [Router.sent, elsewhere, Router.sent] network =
        forked.answersFor [elsewhere, Router.sent, Router.sent] network := by
  have hsame : Interleave [Router.sent, elsewhere, Router.sent]
      [elsewhere, Router.sent, Router.sent] := by
    intro network
    have hsent : Router.sent.target = ⟨5⟩ := rfl
    have helsewhere : elsewhere.target = ⟨6⟩ := rfl
    by_cases h : (⟨5⟩ : NetworkId) = network
    · subst h
      rfl
    · simp only [List.filter_cons, hsent, h, decide_false]
      rfl
  refine interleavings_agree separate_forked hsame fun a ha b hb htarget hkey => ?_
  have heach : ∀ record ∈ [Router.sent, elsewhere, Router.sent],
      record = Router.sent ∨ record = elsewhere := by
    simp
  rcases heach a ha with rfl | rfl
  · rcases heach b hb with rfl | rfl
    · exact absurd rfl htarget
    · exact absurd hkey.symm deliveryKey_elsewhere_ne
  · rcases heach b hb with rfl | rfl
    · exact absurd hkey deliveryKey_elsewhere_ne
    · exact absurd rfl htarget

end Mesh

end Crossnet
