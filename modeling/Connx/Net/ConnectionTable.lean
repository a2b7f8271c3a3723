import Mathlib.Tactic

/-!
# Connection identifiers and the connection table

A registration is named by the slot it occupies and the generation the slot had then. Generations
are 32 bits wide and skip `0`, the generation of no registration. `free_slots_` is a stack; its
back is the head of the list.
-/

namespace Connx

/-- `struct ConnectionId`. The default value is the invalid id. -/
structure ConnectionId where
  slot : UInt32 := 0
  generation : UInt32 := 0
  deriving DecidableEq, Repr, Inhabited

namespace ConnectionId

def valid (id : ConnectionId) : Bool := id.generation != 0

def toUint64 (id : ConnectionId) : UInt64 := (id.generation.toUInt64 <<< 32) ||| id.slot.toUInt64

def fromUint64 (value : UInt64) : ConnectionId where
  slot := (value &&& 0xFFFFFFFF).toUInt32
  generation := (value >>> 32).toUInt32

private lemma low_bits (g s : UInt32) :
    ((g.toUInt64 <<< 32 ||| s.toUInt64) &&& 0xFFFFFFFF).toUInt32 = s := by
  apply UInt32.toBitVec_inj.mp
  ext i hi
  have hones : (4294967295#32)[i] = true := BitVec.getElem_allOnes i hi
  simp [hones]

private lemma high_bits (g s : UInt32) :
    ((g.toUInt64 <<< 32 ||| s.toUInt64) >>> 32).toUInt32 = g := by
  apply UInt32.toBitVec_inj.mp
  ext i hi
  have h₁ : 32 + i < 64 := by omega
  have h₂ : i < 64 := by omega
  simp [h₁, h₂, BitVec.getLsbD_eq_getElem hi]

/-- The tag of the poller carries the whole id. -/
@[simp] lemma fromUint64_toUint64 (id : ConnectionId) : fromUint64 id.toUint64 = id := by
  simp only [fromUint64, toUint64, low_bits, high_bits]

/-- The tag of a valid id is not the one of the wake descriptor. -/
lemma toUint64_ne_zero {id : ConnectionId} (h : id.valid = true) : id.toUint64 ≠ 0 := by
  intro hzero
  have hid : id = {} := by rw [← fromUint64_toUint64 id, hzero]; rfl
  simp [hid, valid] at h

end ConnectionId

/-- `ConnectionTable::Entry`; a client connection is named by a number, and `none` is a weak
pointer that was reset. -/
structure Entry where
  generation : UInt32 := 0
  active : Bool := false
  conn : Option Nat := none
  deriving DecidableEq, Repr, Inhabited

structure ConnectionTable where
  entries : List Entry := []
  freeSlots : List UInt32 := []
  deriving DecidableEq, Repr, Inhabited

/-- `entry.generation++`, once more when that gives `0`. -/
def nextGeneration (g : UInt32) : UInt32 := if g + 1 = 0 then g + 1 + 1 else g + 1

namespace ConnectionTable

def entry (t : ConnectionTable) (slot : UInt32) : Entry := t.entries.getD slot.toNat {}

/-- The slot a registration takes, and the table with that slot made available. -/
def takeSlot (t : ConnectionTable) : UInt32 × ConnectionTable :=
  match t.freeSlots with
  | slot :: rest => (slot, { t with freeSlots := rest })
  | [] => (UInt32.ofNat t.entries.length, { t with entries := t.entries ++ [{}] })

def register (t : ConnectionTable) (conn : Nat) : ConnectionId × ConnectionTable :=
  let (slot, t) := t.takeSlot
  let generation := nextGeneration (t.entry slot).generation
  (⟨slot, generation⟩, { t with entries := t.entries.set slot.toNat ⟨generation, true, some conn⟩ })

/-- The entry `id` names, when it is the current one of its slot. -/
def isCurrent (t : ConnectionTable) (id : ConnectionId) : Bool :=
  id.valid && decide (id.slot.toNat < t.entries.length) && (t.entry id.slot).active &&
    (t.entry id.slot).generation == id.generation

def acquire (t : ConnectionTable) (id : ConnectionId) : Option Nat :=
  if t.isCurrent id then (t.entry id.slot).conn else none

def unregister (t : ConnectionTable) (id : ConnectionId) : ConnectionTable :=
  if t.isCurrent id then
    { entries := t.entries.set id.slot.toNat ⟨(t.entry id.slot).generation, false, none⟩
      freeSlots := id.slot :: t.freeSlots }
  else t

/-! ### Active entries -/

section active

variable {t : ConnectionTable} {n : Nat} {e : Entry}

lemma nextGeneration_ne_zero (g : UInt32) : nextGeneration g ≠ 0 := by
  unfold nextGeneration
  split_ifs with h
  · rw [h]
    decide
  · exact h

/-- A slot that is made available has an inactive entry. -/
lemma active_takeSlot (h : t.takeSlot.2.entries[n]? = some e) (ha : e.active = true) :
    t.entries[n]? = some e := by
  unfold takeSlot at h
  split at h
  · exact h
  · rw [List.getElem?_append] at h
    split_ifs at h
    · exact h
    · obtain rfl : e = {} := by simpa using List.mem_of_getElem? h
      simp at ha

/-- The active entries after a registration: the new one, and old ones in other slots. -/
lemma active_register {i : Nat} (h : (t.register i).2.entries[n]? = some e)
    (ha : e.active = true) :
    (n = (t.register i).1.slot.toNat ∧ e = ⟨(t.register i).1.generation, true, some i⟩) ∨
      t.entries[n]? = some e := by
  change (t.takeSlot.2.entries.set (t.register i).1.slot.toNat
    ⟨(t.register i).1.generation, true, some i⟩)[n]? = some e at h
  rw [List.getElem?_set] at h
  split_ifs at h with hn hlt
  · exact Or.inl ⟨hn.symm, (Option.some_inj.mp h).symm⟩
  · exact Or.inr (active_takeSlot h ha)

lemma valid_register (i : Nat) : (t.register i).1.valid = true := by
  simpa [ConnectionId.valid, register] using nextGeneration_ne_zero _

lemma valid_of_acquire {id : ConnectionId} {i : Nat} (h : t.acquire id = some i) :
    id.valid = true := by
  unfold acquire at h
  split_ifs at h with hcurrent
  simp only [isCurrent, Bool.and_eq_true] at hcurrent
  exact hcurrent.1.1.1

/-- The active entries after `Unregister` are old ones, and not the one of the id. -/
lemma active_unregister {id : ConnectionId} (hid : id.valid = true)
    (h : (t.unregister id).entries[n]? = some e) (ha : e.active = true) :
    t.entries[n]? = some e ∧ ¬ (n = id.slot.toNat ∧ e.generation = id.generation) := by
  unfold unregister at h
  split_ifs at h with hcur
  · rw [List.getElem?_set] at h
    split_ifs at h with hn hlt
    · obtain rfl := Option.some_inj.mp h
      simp at ha
    · exact ⟨h, fun hc => hn hc.1.symm⟩
  · refine ⟨h, fun hc => hcur ?_⟩
    obtain ⟨rfl, hgen⟩ := hc
    have hlt : id.slot.toNat < t.entries.length := (List.getElem?_eq_some_iff.mp h).1
    have hentry : t.entry id.slot = e := by simp [entry, List.getD, h]
    simp [isCurrent, hid, hlt, hentry, ha, hgen]

end active

/-! ### Generations -/

section generations

variable {t : ConnectionTable}

lemma toNat_nextGeneration (g : UInt32) :
    (nextGeneration g).toNat = g.toNat % (2 ^ 32 - 1) + 1 := by
  have hlt := g.toNat_lt
  have hadd : (g + 1).toNat = (g.toNat + 1) % 2 ^ 32 := by simp
  unfold nextGeneration
  split_ifs with h
  · have hzero : (g + 1).toNat = 0 := by rw [h]; rfl
    have hone : (g + 1 + 1).toNat = 1 := by rw [h]; rfl
    rw [hone]
    omega
  · have hne : (g + 1).toNat ≠ 0 := fun hzero => h (UInt32.toNat_inj.mp hzero)
    rw [hadd] at hne ⊢
    omega

/-- The generation of a slot that has been registered `n` times. -/
def generationAfter (n : Nat) : UInt32 := nextGeneration^[n] 0

@[simp] lemma generationAfter_succ (n : Nat) :
    generationAfter (n + 1) = nextGeneration (generationAfter n) :=
  Function.iterate_succ_apply' _ _ _

lemma toNat_generationAfter_succ (n : Nat) :
    (generationAfter (n + 1)).toNat = n % (2 ^ 32 - 1) + 1 := by
  induction n with
  | zero => rfl
  | succ n ih =>
    rw [generationAfter_succ, toNat_nextGeneration, ih]
    omega

/-- A generation comes back only after a multiple of `2 ^ 32 - 1` registrations. -/
lemma modEq_of_generationAfter_eq {m n : Nat} (hm : 0 < m) (hn : 0 < n)
    (h : generationAfter m = generationAfter n) : m ≡ n [MOD 2 ^ 32 - 1] := by
  obtain ⟨m, rfl⟩ := Nat.exists_eq_add_of_lt hm
  obtain ⟨n, rfl⟩ := Nat.exists_eq_add_of_lt hn
  have h' := congrArg UInt32.toNat h
  simp only [Nat.zero_add, toNat_generationAfter_succ] at h' ⊢
  unfold Nat.ModEq
  omega

/-- How often a slot is among registrations. -/
def slotCount (s : UInt32) (regs : List (Nat × ConnectionId)) : Nat :=
  regs.countP fun p => p.2.slot = s

lemma slotCount_snoc (s : UInt32) (regs : List (Nat × ConnectionId)) (i : Nat)
    (id : ConnectionId) :
    slotCount s (regs ++ [(i, id)]) = slotCount s regs + if s = id.slot then 1 else 0 := by
  simp [slotCount, List.countP_append, List.countP_singleton, eq_comm]

/-- Slots that can be taken again belong to the table. -/
def FreeInBounds (t : ConnectionTable) : Prop := ∀ s ∈ t.freeSlots, s.toNat < t.entries.length

lemma takeSlot_lt (h : t.FreeInBounds) : t.takeSlot.1.toNat < t.takeSlot.2.entries.length := by
  unfold takeSlot
  split
  · next slot rest hfree => exact h slot (by simp [hfree])
  · simp only [List.length_append, List.length_singleton]
    have hmod : (UInt32.ofNat t.entries.length).toNat = t.entries.length % 2 ^ 32 := by simp
    rw [hmod]
    omega

lemma generation_takeSlot (s : UInt32) :
    (t.takeSlot.2.entry s).generation = (t.entry s).generation := by
  unfold takeSlot
  split
  · rfl
  · unfold entry
    rw [List.getD_eq_getElem?_getD, List.getD_eq_getElem?_getD, List.getElem?_append]
    split_ifs with hlt
    · rfl
    · rw [List.getElem?_eq_none (Nat.le_of_not_lt hlt)]
      rcases h : [({} : Entry)][s.toNat - t.entries.length]? with _ | e
      · rfl
      · obtain rfl : e = {} := by simpa using List.mem_of_getElem? h
        rfl

/-- A registration gives its slot the next generation and leaves the others alone. -/
lemma generation_register (h : t.FreeInBounds) (i : Nat) (s : UInt32) :
    ((t.register i).2.entry s).generation =
      if s = (t.register i).1.slot then nextGeneration (t.entry s).generation
      else (t.entry s).generation := by
  change ((t.takeSlot.2.entries.set t.takeSlot.1.toNat
    ⟨nextGeneration (t.takeSlot.2.entry t.takeSlot.1).generation, true, some i⟩).getD
      s.toNat {}).generation = if s = t.takeSlot.1 then _ else _
  rw [List.getD_eq_getElem?_getD, List.getElem?_set]
  by_cases hs : s = t.takeSlot.1
  · rw [if_pos (by rw [hs]), if_pos (takeSlot_lt h), if_pos hs, Option.getD_some,
      generation_takeSlot, hs]
  · rw [if_neg (fun heq => hs (UInt32.toNat_inj.mp heq).symm), if_neg hs, ← generation_takeSlot]
    rfl

lemma generation_eq_register (i : Nat) :
    (t.register i).1.generation = nextGeneration (t.entry (t.register i).1.slot).generation := by
  change nextGeneration (t.takeSlot.2.entry t.takeSlot.1).generation = _
  rw [generation_takeSlot]
  rfl

lemma FreeInBounds.register (h : t.FreeInBounds) (i : Nat) : (t.register i).2.FreeInBounds := by
  intro s hs
  change s.toNat < (t.takeSlot.2.entries.set t.takeSlot.1.toNat _).length
  rw [List.length_set]
  change s ∈ t.takeSlot.2.freeSlots at hs
  unfold takeSlot at hs ⊢
  split at hs
  · next slot rest hfree => exact h s (by simp [hfree, hs])
  · next hfree => simp [hfree] at hs

lemma generation_unregister (id : ConnectionId) (s : UInt32) :
    ((t.unregister id).entry s).generation = (t.entry s).generation := by
  unfold unregister
  split_ifs with hcur
  · unfold entry
    rw [List.getD_eq_getElem?_getD, List.getElem?_set]
    split_ifs with hs hlt
    · rw [UInt32.toNat_inj.mp hs]
      rfl
    · rw [List.getD_eq_getElem?_getD, List.getElem?_eq_none (Nat.le_of_not_lt (hs ▸ hlt))]
    · rw [List.getD_eq_getElem?_getD]
  · rfl

lemma FreeInBounds.unregister (h : t.FreeInBounds) (id : ConnectionId) :
    (t.unregister id).FreeInBounds := by
  unfold ConnectionTable.unregister
  split_ifs with hcur
  · intro s hs
    rw [List.length_set]
    rcases List.mem_cons.mp hs with rfl | hmem
    · simp only [isCurrent, Bool.and_eq_true, decide_eq_true_eq] at hcur
      exact hcur.1.1.2
    · exact h s hmem
  · exact h

end generations

end ConnectionTable

end Connx
