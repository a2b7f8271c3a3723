import Connx.Lib.Pool
import Connx.Net.ConnectionTable

/-!
# The connection table over whole runs

Runs of `Register`, `Acquire` and `Unregister` with any ids. The log of a run lists its calls with
what they returned; a registration is held from its `Register` until an `Unregister` of its id. The
active entries of the table are the registrations that are held, and the free slots are the others.
-/

namespace Connx.ConnectionTable

open Pool

/-! ### The table on its own -/

/-- What `free_slots_` and the generations say of the entries. -/
structure WellFormed (t : ConnectionTable) : Prop where
  nodup : t.freeSlots.Nodup
  free_iff : ∀ s : UInt32, s ∈ t.freeSlots ↔ ∃ e, t.entries[s.toNat]? = some e ∧ e.active = false
  generation_ne : ∀ e ∈ t.entries, e.generation ≠ 0

section Table

variable {t : ConnectionTable} {conn n : Nat} {id : ConnectionId} {e : Entry}

lemma length_le_register (t : ConnectionTable) (conn : Nat) :
    t.entries.length ≤ (t.register conn).2.entries.length := by
  change _ ≤ (t.takeSlot.2.entries.set _ _).length
  rw [List.length_set]
  unfold takeSlot
  split <;> simp

lemma length_unregister (t : ConnectionTable) (id : ConnectionId) :
    (t.unregister id).entries.length = t.entries.length := by
  unfold unregister
  split_ifs <;> simp

/-- The slot that a registration takes is not in use. -/
lemma WellFormed.slot_inactive (h : t.WellFormed)
    (hlen : (t.register conn).2.entries.length ≤ 2 ^ 32)
    (he : t.entries[(t.register conn).1.slot.toNat]? = some e) : e.active = false := by
  change t.entries[t.takeSlot.1.toNat]? = some e at he
  change (t.takeSlot.2.entries.set _ _).length ≤ _ at hlen
  rw [List.length_set] at hlen
  unfold takeSlot at he hlen
  split at he
  · next slot rest hfree =>
    obtain ⟨e', he', ha⟩ := (h.free_iff slot).mp (by simp [hfree])
    rwa [Option.some.inj (he.symm.trans he')]
  · next hfree =>
    simp only [hfree, List.length_append, List.length_singleton] at hlen
    have hslot : (UInt32.ofNat t.entries.length).toNat = t.entries.length := by
      rw [UInt32.toNat_ofNat']
      omega
    rw [hslot, List.getElem?_eq_none le_rfl] at he
    cases he

/-- The entries after a registration. -/
lemma WellFormed.getElem?_register (h : t.WellFormed)
    (hlen : (t.register conn).2.entries.length ≤ 2 ^ 32) (n : Nat) :
    (t.register conn).2.entries[n]? =
      if n = (t.register conn).1.slot.toNat then
        some ⟨(t.register conn).1.generation, true, some conn⟩
      else t.entries[n]? := by
  have hfree : t.FreeInBounds := fun s hs =>
    let ⟨_, he, _⟩ := (h.free_iff s).mp hs
    (List.getElem?_eq_some_iff.mp he).1
  have hlt := takeSlot_lt hfree
  change (t.takeSlot.2.entries.set t.takeSlot.1.toNat
    ⟨(t.register conn).1.generation, true, some conn⟩)[n]? = if n = t.takeSlot.1.toNat then _ else _
  change (t.takeSlot.2.entries.set _ _).length ≤ _ at hlen
  rw [List.length_set] at hlen
  rw [List.getElem?_set]
  by_cases hn : n = t.takeSlot.1.toNat
  · rw [if_pos hn.symm, if_pos hlt, if_pos hn]
  · rw [if_neg (Ne.symm hn), if_neg hn]
    unfold takeSlot at hn hlen ⊢
    split
    · rfl
    · next hnil =>
      simp only [hnil, List.length_append, List.length_singleton] at hlen hn
      rw [UInt32.toNat_ofNat', Nat.mod_eq_of_lt (by omega)] at hn
      rw [List.getElem?_append]
      split_ifs with hlt'
      · rfl
      · rw [List.getElem?_eq_none (by omega : t.entries.length ≤ n),
          List.getElem?_eq_none (by simp; omega)]

lemma mem_freeSlots_register (h : t.WellFormed) (s : UInt32) :
    s ∈ (t.register conn).2.freeSlots ↔ s ∈ t.freeSlots ∧ s ≠ (t.register conn).1.slot := by
  change s ∈ t.takeSlot.2.freeSlots ↔ s ∈ t.freeSlots ∧ s ≠ t.takeSlot.1
  unfold takeSlot
  split
  · next slot rest hfree =>
    have hnodup := h.nodup
    rw [hfree] at hnodup ⊢
    have hnot := (List.nodup_cons.mp hnodup).1
    constructor
    · refine fun hs => ⟨List.mem_cons_of_mem _ hs, ?_⟩
      rintro rfl
      exact hnot hs
    · exact fun ⟨hs, hne⟩ => (List.mem_cons.mp hs).resolve_left hne
  · next hfree => simp [hfree]

lemma WellFormed.register (h : t.WellFormed)
    (hlen : (t.register conn).2.entries.length ≤ 2 ^ 32) : (t.register conn).2.WellFormed := by
  refine ⟨?_, fun s => ?_, fun e he => ?_⟩
  · change t.takeSlot.2.freeSlots.Nodup
    have hnodup := h.nodup
    unfold takeSlot
    split
    · next slot rest hfree =>
      rw [hfree] at hnodup
      exact (List.nodup_cons.mp hnodup).2
    · exact hnodup
  · rw [mem_freeSlots_register h, h.free_iff, h.getElem?_register hlen]
    by_cases hs : s = (t.register conn).1.slot
    · simp [hs]
    · have hne : s.toNat ≠ (t.register conn).1.slot.toNat := fun heq =>
        hs (UInt32.toNat_inj.mp heq)
      simp [hs, hne]
  · obtain ⟨n, hn⟩ := List.mem_iff_getElem?.mp he
    rw [h.getElem?_register hlen] at hn
    split_ifs at hn
    · cases hn
      simpa [ConnectionId.valid] using valid_register (t := t) conn
    · exact h.generation_ne e (List.mem_of_getElem? hn)

/-- An id is current when its slot has an active entry of its generation. -/
lemma WellFormed.isCurrent_iff (h : t.WellFormed) :
    t.isCurrent id = true ↔
      ∃ e, t.entries[id.slot.toNat]? = some e ∧ e.active = true ∧ e.generation = id.generation := by
  constructor
  · intro hcur
    simp only [isCurrent, Bool.and_eq_true, decide_eq_true_eq, beq_iff_eq] at hcur
    obtain ⟨⟨⟨-, hlt⟩, hactive⟩, hgen⟩ := hcur
    have hentry : t.entry id.slot = t.entries[id.slot.toNat] := by
      simp [entry, List.getD, List.getElem?_eq_getElem hlt]
    rw [hentry] at hactive hgen
    exact ⟨_, List.getElem?_eq_getElem hlt, hactive, hgen⟩
  · rintro ⟨e, he, hactive, hgen⟩
    have hlt := (List.getElem?_eq_some_iff.mp he).1
    have hentry : t.entry id.slot = e := by simp [entry, List.getD, he]
    have hvalid : id.valid = true := by
      simpa [ConnectionId.valid, ← hgen] using h.generation_ne e (List.mem_of_getElem? he)
    simp [isCurrent, hvalid, hlt, hentry, hactive, hgen]

lemma getElem?_unregister (hcur : t.isCurrent id = true) (n : Nat) :
    (t.unregister id).entries[n]? =
      if n = id.slot.toNat then some ⟨id.generation, false, none⟩ else t.entries[n]? := by
  have hparts := hcur
  simp only [isCurrent, Bool.and_eq_true, decide_eq_true_eq, beq_iff_eq] at hparts
  rw [unregister, if_pos hcur]
  simp only
  rw [List.getElem?_set, hparts.2]
  by_cases hn : n = id.slot.toNat
  · rw [if_pos hn.symm, if_pos hparts.1.1.2, if_pos hn]
  · rw [if_neg (Ne.symm hn), if_neg hn]

lemma WellFormed.unregister (h : t.WellFormed) (id : ConnectionId) :
    (t.unregister id).WellFormed := by
  by_cases hcur : t.isCurrent id = true
  · obtain ⟨e, he, hactive, hgen⟩ := h.isCurrent_iff.mp hcur
    have hfree : (t.unregister id).freeSlots = id.slot :: t.freeSlots := by
      rw [ConnectionTable.unregister, if_pos hcur]
    refine ⟨?_, fun s => ?_, fun e' he' => ?_⟩
    · rw [hfree]
      refine List.nodup_cons.mpr ⟨fun hmem => ?_, h.nodup⟩
      obtain ⟨e', he', hinactive⟩ := (h.free_iff id.slot).mp hmem
      rw [Option.some.inj (he'.symm.trans he), hactive] at hinactive
      cases hinactive
    · rw [hfree, List.mem_cons, h.free_iff, getElem?_unregister hcur]
      by_cases hs : s = id.slot
      · simp [hs]
      · have hne : s.toNat ≠ id.slot.toNat := fun heq => hs (UInt32.toNat_inj.mp heq)
        simp [hs, hne]
    · obtain ⟨n, hn⟩ := List.mem_iff_getElem?.mp he'
      rw [getElem?_unregister hcur] at hn
      split_ifs at hn
      · cases hn
        rw [← hgen]
        exact h.generation_ne e (List.mem_of_getElem? he)
      · exact h.generation_ne e' (List.mem_of_getElem? hn)
  · rwa [ConnectionTable.unregister, if_neg hcur]

end Table

/-! ### Runs -/

/-- A call; `alive` says which connections have not expired when `Acquire` locks the pointer. -/
inductive Op where
  | register (conn : Nat)
  | acquire (id : ConnectionId) (alive : Nat → Bool)
  | unregister (id : ConnectionId)

/-- A call with its result. -/
inductive Event where
  | registered (conn : Nat) (id : ConnectionId)
  | acquired (id : ConnectionId) (alive : Nat → Bool) (result : Option Nat)
  | unregistered (id : ConnectionId)

structure Calls where
  table : ConnectionTable := {}
  log : List Event := []

/-- The entry of the log for a call. -/
def Calls.event (S : Calls) : Op → Event
  | .register conn => .registered conn (S.table.register conn).1
  | .acquire id alive => .acquired id alive ((S.table.acquire id).filter alive)
  | .unregister id => .unregistered id

def Calls.perform (S : Calls) (op : Op) : Calls where
  table :=
    match op with
    | .register conn => (S.table.register conn).2
    | .acquire _ _ => S.table
    | .unregister id => S.table.unregister id
  log := S.log ++ [S.event op]

def run (ops : List Op) : Calls := ops.foldl Calls.perform {}

/-- The `k`-th call registered `conn` as `id`, and `id` was not unregistered since. -/
def Held (log : List Event) (k conn : Nat) (id : ConnectionId) : Prop :=
  log[k]? = some (.registered conn id) ∧ ∀ m, k < m → log[m]? ≠ some (.unregistered id)

def Event.registration : Event → Option (Nat × ConnectionId)
  | .registered conn id => some (conn, id)
  | _ => none

/-- The registrations made so far, oldest first. -/
def registrations (log : List Event) : List (Nat × ConnectionId) :=
  log.filterMap Event.registration

section Log

variable {log : List Event} {event : Event} {k conn conn' : Nat} {id : ConnectionId} {s : UInt32}

lemma Held.lt (h : Held log k conn id) : k < log.length := (List.getElem?_eq_some_iff.mp h.1).1

lemma held_snoc : Held (log ++ [event]) k conn id ↔
    Held log k conn id ∧ event ≠ .unregistered id ∨
      k = log.length ∧ event = .registered conn id := by
  constructor
  · rintro ⟨hreg, hlater⟩
    rw [getElem?_snoc_eq] at hreg
    split_ifs at hreg with hk
    · exact Or.inr ⟨hk, Option.some.inj hreg⟩
    · have hlt := (List.getElem?_eq_some_iff.mp hreg).1
      refine Or.inl ⟨⟨hreg, fun m hm hun => ?_⟩, fun heq => ?_⟩
      · have hm' := (List.getElem?_eq_some_iff.mp hun).1
        exact hlater m hm (by rwa [List.getElem?_append_left hm'])
      · exact hlater log.length hlt (by simp [heq])
  · rintro (⟨hheld, hne⟩ | ⟨rfl, rfl⟩)
    · refine ⟨by rw [List.getElem?_append_left hheld.lt, hheld.1], fun m hm hun => ?_⟩
      rw [getElem?_snoc_eq] at hun
      split_ifs at hun
      · exact hne (Option.some.inj hun)
      · exact hheld.2 m hm hun
    · refine ⟨by simp, fun m hm hun => ?_⟩
      rw [getElem?_snoc_eq, if_neg hm.ne', List.getElem?_eq_none hm.le] at hun
      cases hun

lemma registrations_registered :
    registrations (log ++ [.registered conn id]) = registrations log ++ [(conn, id)] := by
  simp [registrations, Event.registration]

lemma registrations_of_not_registered (he : ∀ conn id, event ≠ .registered conn id) :
    registrations (log ++ [event]) = registrations log := by
  cases event with
  | registered conn id => exact absurd rfl (he conn id)
  | acquired id alive result => simp [registrations, Event.registration]
  | unregistered id => simp [registrations, Event.registration]

lemma slotCount_mono (event : Event) :
    slotCount s (registrations log) ≤ slotCount s (registrations (log ++ [event])) := by
  simp [slotCount, registrations]

end Log

/-! ### The invariant -/

/-- What the log says of the table it led to. -/
structure Represents (S : Calls) : Prop where
  wellFormed : S.table.WellFormed
  held_of_active : ∀ n e, S.table.entries[n]? = some e → e.active = true →
    ∃ k conn id, Held S.log k conn id ∧ id.slot.toNat = n ∧ e = ⟨id.generation, true, some conn⟩
  active_of_held : ∀ k conn id, Held S.log k conn id →
    S.table.entries[id.slot.toNat]? = some ⟨id.generation, true, some conn⟩
  unique : ∀ j k conn conn' id id', Held S.log j conn id → Held S.log k conn' id' →
    id.slot = id'.slot → j = k
  /-- The generation of a slot counts its registrations. -/
  generation : ∀ s, (S.table.entry s).generation =
    generationAfter (slotCount s (registrations S.log))
  /-- An id has the generation of one of the registrations of its slot. -/
  issued : ∀ (k conn : Nat) (id : ConnectionId), S.log[k]? = some (.registered conn id) →
    ∃ m, 0 < m ∧ m ≤ slotCount id.slot (registrations S.log) ∧ id.generation = generationAfter m

section Step

variable {S : Calls} {conn : Nat} {id : ConnectionId}

lemma represents_init : Represents {} := by
  refine ⟨⟨List.nodup_nil, by simp, by simp⟩, by simp, ?_, ?_, fun s => rfl, by simp⟩
  · intro k conn id h
    simp [Held] at h
  · intro j k conn conn' id id' h
    simp [Held] at h

lemma WellFormed.freeInBounds {t : ConnectionTable} (h : t.WellFormed) : t.FreeInBounds :=
  fun s hs =>
    let ⟨_, he, _⟩ := (h.free_iff s).mp hs
    (List.getElem?_eq_some_iff.mp he).1

lemma held_registered_iff {log : List Event} {k conn' : Nat} {id' : ConnectionId} :
    Held (log ++ [.registered conn id]) k conn' id' ↔
      Held log k conn' id' ∨ k = log.length ∧ conn' = conn ∧ id' = id := by
  rw [held_snoc]
  constructor
  · rintro (⟨h, -⟩ | ⟨rfl, heq⟩)
    · exact Or.inl h
    · cases heq
      exact Or.inr ⟨rfl, rfl, rfl⟩
  · rintro (h | ⟨rfl, rfl, rfl⟩)
    · exact Or.inl ⟨h, by simp⟩
    · exact Or.inr ⟨rfl, rfl⟩

lemma Represents.register (h : Represents S)
    (hlen : (S.table.register conn).2.entries.length ≤ 2 ^ 32) :
    Represents (S.perform (.register conn)) := by
  have hentries := h.wellFormed.getElem?_register hlen
  -- a held registration has an active entry, so its slot is not the one taken
  have hslot : ∀ k conn' id', Held S.log k conn' id' →
      id'.slot ≠ (S.table.register conn).1.slot := fun k conn' id' hheld heq => by
    have hactive := h.active_of_held k conn' id' hheld
    rw [heq] at hactive
    simpa using h.wellFormed.slot_inactive hlen hactive
  refine ⟨h.wellFormed.register hlen, fun n e he ha => ?_, fun k conn' id' hheld => ?_,
    fun j k c c' id id' hj hk hs => ?_, fun s => ?_, fun k conn' id' hk => ?_⟩
  · simp only [Calls.perform, Calls.event, held_registered_iff] at he ⊢
    rw [hentries] at he
    split_ifs at he with hn
    · cases he
      exact ⟨S.log.length, conn, (S.table.register conn).1, Or.inr ⟨rfl, rfl, rfl⟩, hn.symm, rfl⟩
    · obtain ⟨k, c, id, hheld, hid⟩ := h.held_of_active n e he ha
      exact ⟨k, c, id, Or.inl hheld, hid⟩
  · simp only [Calls.perform, Calls.event, held_registered_iff] at hheld ⊢
    rw [hentries]
    obtain hheld | ⟨rfl, rfl, rfl⟩ := hheld
    · rw [if_neg fun heq => hslot k conn' id' hheld (UInt32.toNat_inj.mp heq)]
      exact h.active_of_held k conn' id' hheld
    · rw [if_pos rfl]
  · simp only [Calls.perform, Calls.event, held_registered_iff] at hj hk
    obtain hj | ⟨rfl, rfl, rfl⟩ := hj <;> obtain hk | ⟨rfl, rfl, rfl⟩ := hk
    · exact h.unique j k c c' id id' hj hk hs
    · exact absurd hs (hslot j c id hj)
    · exact absurd hs.symm (hslot k c' id' hk)
    · rfl
  · simp only [Calls.perform, Calls.event]
    rw [registrations_registered, slotCount_snoc, generation_register h.wellFormed.freeInBounds]
    by_cases hs : s = (S.table.register conn).1.slot
    · rw [if_pos hs, if_pos hs, generationAfter_succ, h.generation]
    · rw [if_neg hs, if_neg hs, h.generation, add_zero]
  · simp only [Calls.perform, Calls.event] at hk ⊢
    rw [getElem?_snoc_eq] at hk
    split_ifs at hk
    · cases hk
      refine ⟨slotCount (S.table.register conn).1.slot (registrations S.log) + 1, Nat.succ_pos _,
        ?_, ?_⟩
      · rw [registrations_registered, slotCount_snoc, if_pos rfl]
      · rw [generationAfter_succ, ← h.generation, ← generation_eq_register]
    · obtain ⟨m, hpos, hle, hgen⟩ := h.issued k conn' id' hk
      exact ⟨m, hpos, hle.trans (slotCount_mono _), hgen⟩

/-- A call that only looks at the table. -/
lemma Represents.acquire (h : Represents S) (alive : Nat → Bool) :
    Represents (S.perform (.acquire id alive)) := by
  have hheld : ∀ k conn' id', Held (S.perform (.acquire id alive)).log k conn' id' ↔
      Held S.log k conn' id' := fun k conn' id' => by
    simp [Calls.perform, Calls.event, held_snoc]
  have hregs : registrations (S.perform (.acquire id alive)).log = registrations S.log :=
    registrations_of_not_registered (by simp [Calls.event])
  refine ⟨h.wellFormed, ?_, ?_, ?_, ?_, fun k conn' id' hk => ?_⟩
  · simp only [hheld]
    exact h.held_of_active
  · simp only [hheld]
    exact h.active_of_held
  · simp only [hheld]
    exact h.unique
  · simp only [hregs]
    exact h.generation
  · simp only [Calls.perform, Calls.event] at hk
    rw [getElem?_snoc_eq] at hk
    split_ifs at hk
    · cases hk
    · rw [hregs]
      exact h.issued k conn' id' hk

lemma held_unregistered_iff {k conn' : Nat} {id' : ConnectionId} :
    Held (S.perform (.unregister id)).log k conn' id' ↔ Held S.log k conn' id' ∧ id' ≠ id := by
  simp [Calls.perform, Calls.event, held_snoc, eq_comm]

lemma Represents.unregister (h : Represents S) (id : ConnectionId) :
    Represents (S.perform (.unregister id)) := by
  have hregs : registrations (S.perform (.unregister id)).log = registrations S.log :=
    registrations_of_not_registered (by simp [Calls.event])
  have hentries : ∀ n e, e.active = true →
      ((S.table.unregister id).entries[n]? = some e ↔
        S.table.entries[n]? = some e ∧ ¬(n = id.slot.toNat ∧ e.generation = id.generation)) :=
    fun n e ha => by
      by_cases hcur : S.table.isCurrent id = true
      · rw [getElem?_unregister hcur]
        obtain ⟨e', he', -, hgen⟩ := h.wellFormed.isCurrent_iff.mp hcur
        split_ifs with hn
        · subst hn
          constructor
          · rintro ⟨⟩
            cases ha
          · rintro ⟨he, hnot⟩
            rw [Option.some.inj (he.symm.trans he')] at hnot
            exact absurd ⟨rfl, hgen⟩ hnot
        · simp [hn]
      · rw [ConnectionTable.unregister, if_neg hcur]
        refine ⟨fun he => ⟨he, ?_⟩, And.left⟩
        rintro ⟨rfl, hgen⟩
        exact hcur (h.wellFormed.isCurrent_iff.mpr ⟨e, he, ha, hgen⟩)
  refine ⟨h.wellFormed.unregister id, fun n e he ha => ?_, fun k conn' id' hk => ?_,
    fun j k c c' i i' hj hk hs => ?_, fun s => ?_, fun k conn' id' hk => ?_⟩
  · obtain ⟨he, hnot⟩ := (hentries n e ha).mp he
    obtain ⟨k, c, id', hk, rfl, rfl⟩ := h.held_of_active n e he ha
    refine ⟨k, c, id', held_unregistered_iff.mpr ⟨hk, ?_⟩, rfl, rfl⟩
    rintro rfl
    exact hnot ⟨rfl, rfl⟩
  · obtain ⟨hk, hne⟩ := held_unregistered_iff.mp hk
    refine (hentries _ _ rfl).mpr ⟨h.active_of_held k conn' id' hk, fun ⟨hslot, hgen⟩ => hne ?_⟩
    cases id'
    cases id
    simp only [ConnectionId.mk.injEq] at hgen ⊢
    exact ⟨UInt32.toNat_inj.mp hslot, hgen⟩
  · exact h.unique j k c c' i i' (held_unregistered_iff.mp hj).1 (held_unregistered_iff.mp hk).1 hs
  · rw [hregs, ← h.generation]
    exact generation_unregister id s
  · simp only [Calls.perform, Calls.event] at hk
    rw [getElem?_snoc_eq] at hk
    split_ifs at hk
    · cases hk
    · rw [hregs]
      exact h.issued k conn' id' hk

lemma Represents.isCurrent_iff (h : Represents S) :
    S.table.isCurrent id = true ↔ ∃ k conn, Held S.log k conn id := by
  rw [h.wellFormed.isCurrent_iff]
  constructor
  · rintro ⟨e, he, hactive, hgen⟩
    obtain ⟨k, conn, id', hheld, hslot, rfl⟩ := h.held_of_active _ e he hactive
    have hid : id' = id := by
      cases id'
      cases id
      simp only [ConnectionId.mk.injEq] at hgen ⊢
      exact ⟨UInt32.toNat_inj.mp hslot, hgen⟩
    exact ⟨k, conn, hid ▸ hheld⟩
  · rintro ⟨k, conn, hheld⟩
    exact ⟨_, h.active_of_held k conn id hheld, rfl, rfl⟩

/-- What `Acquire` returns, by the registrations that are held. -/
lemma Represents.acquire_eq_some_iff (h : Represents S) :
    S.table.acquire id = some conn ↔ ∃ k, Held S.log k conn id := by
  have hof : ∀ k conn, Held S.log k conn id → S.table.acquire id = some conn :=
    fun k conn hheld => by
      have he := h.active_of_held k conn id hheld
      rw [ConnectionTable.acquire, if_pos (h.isCurrent_iff.mpr ⟨k, conn, hheld⟩)]
      simp [entry, List.getD, he]
  constructor
  · intro hacq
    have hcur : S.table.isCurrent id = true := by
      by_contra hcur
      rw [ConnectionTable.acquire, if_neg hcur] at hacq
      cases hacq
    obtain ⟨k, conn', hheld⟩ := h.isCurrent_iff.mp hcur
    rw [hof k conn' hheld] at hacq
    cases hacq
    exact ⟨k, hheld⟩
  · rintro ⟨k, hheld⟩
    exact hof k conn hheld

/-- Only a registration that is held can be ended. -/
lemma Represents.unregister_stale (h : Represents S) (hnone : ∀ k conn, ¬Held S.log k conn id) :
    S.table.unregister id = S.table :=
  if_neg fun hcur =>
    let ⟨k, conn, hheld⟩ := h.isCurrent_iff.mp hcur
    hnone k conn hheld

end Step

/-! ### Results -/

lemma run_snoc (ops : List Op) (op : Op) : run (ops ++ [op]) = (run ops).perform op := by
  simp [run]

lemma length_le_perform (S : Calls) (op : Op) :
    S.table.entries.length ≤ (S.perform op).table.entries.length := by
  cases op with
  | register conn => exact length_le_register S.table conn
  | acquire id alive => exact le_rfl
  | unregister id => exact (length_unregister S.table id).ge

lemma represents_run {ops : List Op} (hslots : (run ops).table.entries.length ≤ 2 ^ 32) :
    Represents (run ops) := by
  induction ops using List.reverseRecOn with
  | nil => exact represents_init
  | append_singleton ops op ih =>
    rw [run_snoc] at hslots ⊢
    have h := ih ((length_le_perform _ op).trans hslots)
    cases op with
    | register conn => exact h.register hslots
    | acquire id alive => exact h.acquire alive
    | unregister id => exact h.unregister id

/-- What a logged `Acquire` returned, by the registrations held at that point. -/
lemma acquired_run {ops : List Op} (hslots : (run ops).table.entries.length ≤ 2 ^ 32) {k : Nat}
    {id : ConnectionId} {alive : Nat → Bool} {result : Option Nat}
    (hk : (run ops).log[k]? = some (.acquired id alive result)) :
    (∀ conn, result = some conn → ∃ j, Held ((run ops).log.take k) j conn id) ∧
      ∀ j conn, Held ((run ops).log.take k) j conn id →
        result = if alive conn then some conn else none := by
  induction ops using List.reverseRecOn with
  | nil => simp [run] at hk
  | append_singleton ops op ih =>
    rw [run_snoc] at hslots hk ⊢
    have hslots' := (length_le_perform _ op).trans hslots
    have hlog : ((run ops).perform op).log = (run ops).log ++ [(run ops).event op] := rfl
    rw [hlog, getElem?_snoc_eq] at hk
    rw [hlog]
    split_ifs at hk with hlast
    · -- the new call, which saw the table as it is now
      subst hlast
      rw [List.take_left]
      cases op with
      | register conn => cases hk
      | acquire id' alive' =>
        cases hk
        refine ⟨fun conn hconn => ?_, fun j conn hheld => ?_⟩
        · rw [Option.filter_eq_some_iff] at hconn
          exact (represents_run hslots').acquire_eq_some_iff.mp hconn.1
        · rw [(represents_run hslots').acquire_eq_some_iff.mpr ⟨j, hheld⟩, Option.filter_some]
      | unregister id' => cases hk
    · have hlt := (List.getElem?_eq_some_iff.mp hk).1
      rw [List.take_append_of_le_length hlt.le]
      exact ih hslots' hk

/-- Below `2 ^ 32 - 1` registrations a slot, the ids handed out are different. -/
lemma registered_inj {ops : List Op} (hslots : (run ops).table.entries.length ≤ 2 ^ 32)
    (hcount : ∀ s, slotCount s (registrations (run ops).log) < 2 ^ 32 - 1)
    {j k conn conn' : Nat} {id : ConnectionId} (hj : (run ops).log[j]? = some (.registered conn id))
    (hk : (run ops).log[k]? = some (.registered conn' id)) : j = k := by
  induction ops using List.reverseRecOn with
  | nil => simp [run] at hj
  | append_singleton ops op ih =>
    rw [run_snoc] at hslots hcount hj hk
    have hrep := represents_run ((length_le_perform _ op).trans hslots)
    -- an older id of the slot has an older generation
    have hold : ∀ (i c c' : Nat), (run ops).log[i]? = some (.registered c id) →
        (run ops).event op ≠ .registered c' id := fun i c c' hi hlast => by
      obtain ⟨m, hpos, hle, hgen⟩ := hrep.issued i c id hi
      have hnew := hcount id.slot
      change slotCount _ (registrations ((run ops).log ++ [(run ops).event op])) < _ at hnew
      rw [hlast, registrations_registered, slotCount_snoc, if_pos rfl] at hnew
      cases op with
      | register c'' =>
        cases hlast
        rw [generation_eq_register, hrep.generation, ← generationAfter_succ] at hgen
        have hmod := modEq_of_generationAfter_eq (Nat.succ_pos _) hpos hgen
        have := Nat.ModEq.eq_of_lt_of_lt hmod (by omega) (by omega)
        omega
      | acquire id' alive => cases hlast
      | unregister id' => cases hlast
    change ((run ops).log ++ [(run ops).event op])[j]? = _ at hj
    change ((run ops).log ++ [(run ops).event op])[k]? = _ at hk
    rw [getElem?_snoc_eq] at hj hk
    split_ifs at hj hk with hj' hk' hk'
    · exact hj'.trans hk'.symm
    · exact absurd (Option.some.inj hj) (hold k conn' conn hk)
    · exact absurd (Option.some.inj hk) (hold j conn conn' hj)
    · exact ih ((length_le_perform _ op).trans hslots)
        (fun s => (slotCount_mono _).trans_lt (hcount s)) hj hk

/-- What holds of the table after every run of calls with any ids. -/
structure Lawful (S : Calls) : Prop where
  /-- No slot is free twice, and the free slots are those of the inactive entries. -/
  free_nodup : S.table.freeSlots.Nodup
  free_iff : ∀ n, (∃ s ∈ S.table.freeSlots, s.toNat = n) ↔
    ∃ e, S.table.entries[n]? = some e ∧ e.active = false
  generation_ne : ∀ e ∈ S.table.entries, e.generation ≠ 0
  slots_ne : ∀ j k conn conn' id id', Held S.log j conn id → Held S.log k conn' id' → j ≠ k →
    id.slot ≠ id'.slot
  /-- Only a registration that is held can be ended, and only once. -/
  unregister_stale : ∀ id, (∀ k conn, ¬Held S.log k conn id) → S.table.unregister id = S.table
  unregister_twice : ∀ id, (S.table.unregister id).unregister id = S.table.unregister id
  acquired : ∀ k id alive result, S.log[k]? = some (.acquired id alive result) →
    (∀ conn, result = some conn → ∃ j, Held (S.log.take k) j conn id) ∧
      ∀ j conn, Held (S.log.take k) j conn id → result = if alive conn then some conn else none
  registered_inj : (∀ s, slotCount s (registrations S.log) < 2 ^ 32 - 1) →
    ∀ (j k conn conn' : Nat) (id : ConnectionId), S.log[j]? = some (.registered conn id) →
      S.log[k]? = some (.registered conn' id) → j = k

theorem lawful_run (ops : List Op) (hslots : (run ops).table.entries.length < 2 ^ 32) :
    Lawful (run ops) := by
  have h := represents_run hslots.le
  refine ⟨h.wellFormed.nodup, fun n => ?_, h.wellFormed.generation_ne,
    fun j k conn conn' id id' hj hk hne hs => hne (h.unique j k conn conn' id id' hj hk hs),
    fun id hnone => h.unregister_stale hnone, fun id => ?_,
    fun k id alive result hk => acquired_run hslots.le hk,
    fun hcount j k conn conn' id hj hk => registered_inj hslots.le hcount hj hk⟩
  · constructor
    · rintro ⟨s, hs, rfl⟩
      exact (h.wellFormed.free_iff s).mp hs
    · rintro ⟨e, he, hinactive⟩
      have hlt := (List.getElem?_eq_some_iff.mp he).1
      have hn : (UInt32.ofNat n).toNat = n := by
        rw [UInt32.toNat_ofNat']
        omega
      exact ⟨.ofNat n, (h.wellFormed.free_iff _).mpr ⟨e, by rwa [hn], hinactive⟩, hn⟩
  · exact (h.unregister id).unregister_stale fun k conn hheld =>
      (held_unregistered_iff.mp hheld).2 rfl

/-- A slot is used again after its registration was ended twice, and both ids are looked up. -/
def reuseRun : List Op :=
  [.register 5, .unregister ⟨0, 1⟩, .unregister ⟨0, 1⟩, .register 6,
    .acquire ⟨0, 1⟩ fun _ => true, .acquire ⟨0, 2⟩ fun _ => true]

theorem lawful_reuseRun :
    Lawful (run reuseRun) ∧
      (run reuseRun).log[4]? = some (.acquired ⟨0, 1⟩ (fun _ => true) none) ∧
      (run reuseRun).log[5]? = some (.acquired ⟨0, 2⟩ (fun _ => true) (some 6)) :=
  ⟨lawful_run reuseRun (by decide), rfl, rfl⟩

end Connx.ConnectionTable
