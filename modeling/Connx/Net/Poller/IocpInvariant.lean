import Connx.Net.Poller.Iocp

/-!
# Who owns a request

A request has one owner at a time: the call that made it, the map, the `shared_ptr`s, or nobody once
`Shutdown` has forgotten it; then it is deleted once. While it is in the map it is at exactly one
place of its way: in a call, with the system, in the queue, or in the hands of the poll thread.
Since the map is only asked for addresses of requests that are in it, an address that was used again
cannot be mistaken.
-/

namespace Connx.Poll.Iocp

/-- The call has the request to itself. -/
def Call.owns (k : Nat) : Call → Nat
  | .fresh _ _ j => if k = j then 1 else 0
  | .removed (some j) _ => if k = j then 1 else 0
  | _ => 0

/-- The request is in the map, and the system does not have it. -/
def Call.flies (k : Nat) : Call → Nat
  | .tracked _ _ j => if k = j then 1 else 0
  | .refused j _ => if k = j then 1 else 0
  | _ => 0

/-- The call has no request. -/
def Call.Free (c : Call) : Prop := ∀ k, c.owns k = 0 ∧ c.flies k = 0

/-- The call is behind `LoadConnectEx`. -/
def Call.connects : Call → Bool
  | .allocate _ op => op.kind == .connect
  | .fresh _ op _ => op.kind == .connect
  | .tracked _ op _ => op.kind == .connect
  | _ => false

/-- The request of the call, and what it asks for. -/
def Call.names : Call → Option (Nat × Operation)
  | .fresh _ op k => some (k, op)
  | .tracked _ op k => some (k, op)
  | _ => none

/-- What the call relies on. -/
def Call.Good (connectex opened : Bool) (heap : List WinIoRequest) (c : Call) : Prop :=
  (c.connects = true → connectex = true) ∧
    (∀ k op, c.names = some (k, op) → (request heap k).op = op) ∧
      (c.isReturned = false → opened = true)

def Packet.isFor (k : Nat) : Packet → Bool
  | .completion j _ => j == k
  | .wake => false

/-- The completion that the poll thread has in its hands. -/
def WaitPc.taken : WaitPc → List Packet
  | .dequeued k o _ => [.completion k o]
  | _ => []

/-- The completions on their way to an event. -/
def packets (wait : WaitPc) (queue : List Packet) : List Packet := wait.taken ++ queue

section weights

variable (k : Nat)

def tracked (requests : Nat → Option Nat) (heap : List WinIoRequest) : Nat :=
  if requests (request heap k).address = some k then 1 else 0

def shared (refs : Nat → Nat) : Nat := if 0 < refs k then 1 else 0

def forgotten (lost : Nat → Bool) : Nat := if lost k then 1 else 0

def born (heap : List WinIoRequest) : Nat := if k < heap.length then 1 else 0

end weights

/-- What holds in every state. -/
structure Inv (S : State) : Prop where
  safe : S.bad = false
  own : ∀ k, Pool.total (Call.owns k) S.calls + tracked k S.requests S.heap + shared k S.refs +
    forgotten k S.lost + (request S.heap k).frees = born k S.heap
  fly : ∀ k, Pool.total (Call.flies k) S.calls + S.pending.count (k, true) +
    (packets S.wait S.queue).countP (Packet.isFor k) = tracked k S.requests S.heap
  stray : ∀ k, S.pending.count (k, false) ≤ forgotten k S.lost
  key : ∀ a k, S.requests a = some k → (request S.heap k).address = a
  apart : ∀ j k, j < S.heap.length → k < S.heap.length → (request S.heap j).frees = 0 →
    (request S.heap k).frees = 0 → (request S.heap j).address = (request S.heap k).address → j = k
  held : ∀ k, S.wait.collected.countP (fun ev => ev.data == k) ≤ S.refs k
  good : ∀ c ∈ S.calls, c.Good S.connectex S.opened S.heap
  closed : S.opened = false → (∀ a, S.requests a = none) ∧ S.wait = .idle ∧ S.queue = []
  filled : ∀ k o, .completion k o ∈ packets S.wait S.queue → (request S.heap k).operation = .recv →
    o.error = none → (request S.heap k).buffer.take o.bytes = o.received

variable {S : State} {i j k : Nat} {c c' : Call} {requests : Nat → Option Nat}
  {heap : List WinIoRequest}

lemma inv_init : Inv {} where
  safe := rfl
  own k := by simp [tracked, shared, forgotten, born, request, default]
  fly k := by simp [packets, tracked, WaitPc.taken]
  stray k := by simp
  key a k h := by simp at h
  apart j k h := by simp at h
  held k := by simp [WaitPc.collected]
  good c h := by simp at h
  closed _ := ⟨fun _ => rfl, rfl, rfl⟩
  filled k o h := by simp [packets, WaitPc.taken] at h

/-! ### The heap -/

lemma request_append_of_lt {r : WinIoRequest} (h : k < heap.length) :
    request (heap ++ [r]) k = request heap k := by
  unfold request
  rw [List.getElem?_append_left h]

@[simp] lemma request_append_length {r : WinIoRequest} :
    request (heap ++ [r]) heap.length = r := by
  simp [request]

lemma request_of_le (h : heap.length ≤ k) : request heap k = default := by
  simp [request, List.getElem?_eq_none h]

lemma request_modify (f : WinIoRequest → WinIoRequest) (hk : k < heap.length) :
    request (heap.modify k f) j = if j = k then f (request heap k) else request heap j := by
  unfold request
  rw [List.getElem?_modify]
  by_cases hj : k = j
  · subst hj
    simp [List.getElem?_eq_getElem hk]
  · simp [hj, Ne.symm hj]

lemma tracked_none : tracked k (fun _ => none) heap = 0 := by simp [tracked]

lemma born_le_one : born k heap ≤ 1 := by
  unfold born
  split_ifs <;> omega

lemma total_of_returned {calls : List Call} (hall : calls.all Call.isReturned = true) :
    Pool.total (Call.owns k) calls = 0 ∧ Pool.total (Call.flies k) calls = 0 := by
  have hfree : ∀ c ∈ calls, c.Free := by
    intro c hc
    have hreturned := List.all_eq_true.mp hall c hc
    cases c with
    | returned result => exact fun _ => ⟨rfl, rfl⟩
    | _ => cases hreturned
  exact ⟨Pool.total_eq_zero.mpr fun c hc => (hfree c hc k).1,
    Pool.total_eq_zero.mpr fun c hc => (hfree c hc k).2⟩

lemma count_map_false (pending : List (Nat × Bool)) :
    (pending.map fun p => (p.1, false)).count (k, false) =
      pending.count (k, true) + pending.count (k, false) := by
  induction pending with
  | nil => rfl
  | cons p pending ih =>
    obtain ⟨j, reported⟩ := p
    simp only [List.map_cons, List.count_cons, ih]
    cases reported <;> by_cases hj : j = k <;> simp [hj] <;> omega

section map

/-- A request is put into the map where nothing was. -/
lemma tracked_update_some (hnone : requests (request heap k).address = none) :
    tracked j (Function.update requests (request heap k).address (some k)) heap =
      if j = k then 1 else tracked j requests heap := by
  unfold tracked
  by_cases hj : j = k
  · simp [hj]
  · by_cases ha : (request heap j).address = (request heap k).address
    · simp [ha, hj, hnone, Ne.symm hj]
    · simp [Function.update_of_ne ha, hj]

/-- A request is taken out of the map. -/
lemma tracked_update_none (hk : requests (request heap k).address = some k) :
    tracked j (Function.update requests (request heap k).address none) heap =
      if j = k then 0 else tracked j requests heap := by
  unfold tracked
  by_cases hj : j = k
  · simp [hj]
  · by_cases ha : (request heap j).address = (request heap k).address
    · simp [ha, hj, hk, Ne.symm hj]
    · simp [Function.update_of_ne ha, hj]

lemma tracked_modify {f : WinIoRequest → WinIoRequest} (hf : ∀ r, (f r).address = r.address)
    (hk : k < heap.length) : tracked j requests (heap.modify k f) = tracked j requests heap := by
  unfold tracked
  rw [request_modify f hk]
  by_cases hj : j = k
  · simp [hj, hf]
  · simp [hj]

lemma key_update_some (hkey : ∀ a j, requests a = some j → (request heap j).address = a) (a j : Nat)
    (ha : Function.update requests (request heap k).address (some k) a = some j) :
    (request heap j).address = a := by
  by_cases hka : a = (request heap k).address
  · rw [hka, Function.update_self] at ha
    rw [← Option.some.inj ha, hka]
  · rw [Function.update_of_ne hka] at ha
    exact hkey a j ha

lemma key_update_none (hkey : ∀ a j, requests a = some j → (request heap j).address = a) (a j : Nat)
    (ha : Function.update requests (request heap k).address none a = some j) :
    (request heap j).address = a := by
  by_cases hka : a = (request heap k).address
  · rw [hka, Function.update_self] at ha
    cases ha
  · rw [Function.update_of_ne hka] at ha
    exact hkey a j ha

end map

section calls

variable {calls : List Call} (hc : calls[i]? = some c) (c' : Call) (j : Nat)
include hc

lemma total_owns_set : Pool.total (Call.owns j) (calls.set i c') + c.owns j =
    Pool.total (Call.owns j) calls + c'.owns j := Pool.total_set hc

lemma total_flies_set : Pool.total (Call.flies j) (calls.set i c') + c.flies j =
    Pool.total (Call.flies j) calls + c'.flies j := Pool.total_set hc

end calls

/-- A call that has no request and needs no `ConnectEx`. -/
lemma good_of_inert {connectex opened : Bool} (hconnects : c.connects = false)
    (hnames : c.names = none) (hrunning : c.isReturned = false → opened = true) :
    c.Good connectex opened heap := by
  refine ⟨fun hconn => ?_, fun k op hsome => ?_, hrunning⟩
  · rw [hconnects] at hconn
    cases hconn
  · rw [hnames] at hsome
    cases hsome

lemma good_set {calls : List Call} {connectex opened : Bool}
    (hgood : ∀ c ∈ calls, c.Good connectex opened heap) (hc' : c'.Good connectex opened heap) :
    ∀ c ∈ calls.set i c', c.Good connectex opened heap := by
  intro c hc
  rcases List.mem_or_eq_of_mem_set hc with hc | rfl
  · exact hgood c hc
  · exact hc'

namespace Inv

variable (h : Inv S)
include h

lemma lt_of_tracked (hk : S.requests (request S.heap k).address = some k) : k < S.heap.length := by
  have hown := h.own k
  simp only [tracked, hk, if_true, born] at hown
  split_ifs at hown with hlt
  · exact hlt
  · omega

lemma tracked_of_requests {a : Nat} (hk : S.requests a = some k) :
    S.requests (request S.heap k).address = some k := by rwa [h.key a k hk]

/-- What is in the map is nobody else's. -/
lemma of_tracked (hk : S.requests (request S.heap k).address = some k) :
    Pool.total (Call.owns k) S.calls = 0 ∧ S.refs k = 0 ∧ S.lost k = false ∧
      (request S.heap k).frees = 0 := by
  have hown := h.own k
  have hborn : born k S.heap ≤ 1 := born_le_one
  have htracked : tracked k S.requests S.heap = 1 := if_pos hk
  refine ⟨by omega, ?_, ?_, by omega⟩
  · by_contra hne
    have hshared : shared k S.refs = 1 := if_pos (Nat.pos_of_ne_zero hne)
    omega
  · by_contra hne
    have hforgotten : forgotten k S.lost = 1 := if_pos (Bool.not_eq_false _ ▸ hne)
    omega

/-! ### `Init`, `Shutdown`, `Add` and `Wake` -/

lemma associate (associated : Socket → Bool) : Inv { S with associated := associated } :=
  ⟨h.safe, h.own, h.fly, h.stray, h.key, h.apart, h.held, h.good, h.closed, h.filled⟩

lemma add (fd : Socket) (created : Bool) : Inv (S.add fd created) := by
  unfold State.add
  split_ifs
  · exact h
  · exact h.associate _
  · exact h

lemma wake : Inv S.wake := by
  unfold State.wake
  split_ifs with hopened
  · refine ⟨h.safe, h.own, fun k => ?_, h.stray, h.key, h.apart, h.held, h.good, ?_,
      fun k o ho => ?_⟩
    · rw [← h.fly k]
      simp [packets, ← List.append_assoc, Packet.isFor]
    · intro hclosed
      simp [hopened] at hclosed
    · refine h.filled k o ?_
      simpa [packets] using ho
  · exact h

lemma init (created : Bool) : Inv (S.init created) := by
  unfold State.init
  split_ifs with hopened hcreated
  · exact h
  · obtain ⟨hrequests, hwait, hqueue⟩ := h.closed (Bool.not_eq_true _ ▸ hopened)
    have hnone : S.requests = fun _ => none := funext hrequests
    refine ⟨h.safe, hnone ▸ h.own, fun k => ?_, h.stray, fun a k ha => ?_, h.apart, h.held,
      fun c hc => ?_, fun hclosed => ?_, fun k o ho => ?_⟩
    · rw [← hnone, ← h.fly k, hqueue]
    · cases ha
    · obtain ⟨-, hnamed, hrunning⟩ := h.good c hc
      refine ⟨fun hconnects => ?_, hnamed, fun _ => rfl⟩
      have hreturned : c.isReturned = false := by cases c <;> first | rfl | cases hconnects
      exact absurd (hrunning hreturned) hopened
    · cases hclosed
    · simp [packets, hwait, WaitPc.taken] at ho
  · exact h

/-- What `Shutdown` finds in the map stays on the heap, since the system may still write to it. -/
lemma shutdown (hall : S.calls.all Call.isReturned = true) (hidle : S.wait = .idle) :
    Inv S.shutdown := by
  unfold State.shutdown
  split_ifs with hopened
  · have hforgotten : ∀ k,
        forgotten k (fun k => S.lost k || S.requests (S.req k).address == some k) =
        forgotten k S.lost + tracked k S.requests S.heap := by
      intro k
      have hown := h.own k
      have hborn : born k S.heap ≤ 1 := born_le_one
      unfold forgotten tracked at hown ⊢
      by_cases hlost : S.lost k = true
      · simp only [hlost, Bool.true_or, if_true] at hown ⊢
        omega
      · simp [hlost, State.req]
    have hlanded : ∀ k, Pool.total (Call.flies k) S.calls = 0 := fun k => (total_of_returned hall).2
    refine ⟨h.safe, fun k => ?_, fun k => ?_, fun k => ?_, fun a k ha => ?_, h.apart, h.held,
      fun c hc => ?_, fun _ => ⟨fun _ => rfl, hidle, rfl⟩, fun k o ho => ?_⟩
    · have hown := h.own k
      dsimp only
      rw [hforgotten, tracked_none]
      omega
    · dsimp only
      rw [hlanded, tracked_none, hidle, List.count_eq_zero.mpr (by simp)]
      rfl
    · rw [count_map_false, hforgotten]
      have hfly := h.fly k
      have hstray := h.stray k
      omega
    · cases ha
    · have hreturned := List.all_eq_true.mp hall c hc
      obtain ⟨hconnects, hnamed, hrunning⟩ := h.good c hc
      refine ⟨fun hconn => ?_, hnamed, fun hnot => ?_⟩
      · cases c <;> first | cases hconn | cases hreturned
      · rw [hreturned] at hnot
        cases hnot
    · simp [packets, hidle, WaitPc.taken] at ho
  · exact h

/-! ### Where a request is -/

lemma tracked_of_packet {o : Outcome} (hmem : .completion k o ∈ packets S.wait S.queue) :
    S.requests (request S.heap k).address = some k := by
  have hfly := h.fly k
  have hpos : 0 < (packets S.wait S.queue).countP (Packet.isFor k) :=
    List.countP_pos_iff.mpr ⟨_, hmem, by simp [Packet.isFor]⟩
  by_contra hnot
  rw [tracked, if_neg hnot] at hfly
  omega

lemma tracked_of_flies (hc : S.calls[i]? = some c) (hflies : c.flies k = 1) :
    S.requests (request S.heap k).address = some k := by
  have hfly := h.fly k
  have hle : c.flies k ≤ Pool.total (Call.flies k) S.calls := Pool.le_total hc
  by_contra hnot
  rw [tracked, if_neg hnot] at hfly
  omega

lemma tracked_of_pending (hmem : (k, true) ∈ S.pending) :
    S.requests (request S.heap k).address = some k := by
  have hfly := h.fly k
  have hpos := List.count_pos_iff.mpr hmem
  by_contra hnot
  rw [tracked, if_neg hnot] at hfly
  omega

/-- What a call owns is nobody else's. -/
lemma of_owns (hc : S.calls[i]? = some c) (howns : c.owns k = 1) :
    k < S.heap.length ∧ tracked k S.requests S.heap = 0 ∧ S.refs k = 0 ∧
      (request S.heap k).frees = 0 ∧ Pool.total (Call.owns k) S.calls = 1 := by
  have hown := h.own k
  have hle : c.owns k ≤ Pool.total (Call.owns k) S.calls := Pool.le_total hc
  have hborn : born k S.heap ≤ 1 := born_le_one
  refine ⟨?_, by omega, ?_, by omega, by omega⟩
  · by_contra hge
    rw [born, if_neg hge] at hown
    omega
  · by_contra hne
    have hshared : shared k S.refs = 1 := if_pos (Nat.pos_of_ne_zero hne)
    omega

lemma lt_of_named {op : Operation} (hc : c ∈ S.calls) (hnames : c.names = some (k, op)) :
    k < S.heap.length := by
  obtain ⟨i, hi⟩ := List.mem_iff_getElem?.mp hc
  cases c with
  | fresh fd op' k' =>
    obtain ⟨rfl, -⟩ : k' = k ∧ op' = op := by simpa [Call.names] using hnames
    exact (h.of_owns hi (by simp [Call.owns])).1
  | tracked fd op' k' =>
    obtain ⟨rfl, -⟩ : k' = k ∧ op' = op := by simpa [Call.names] using hnames
    exact h.lt_of_tracked (h.tracked_of_flies hi (by simp [Call.flies]))
  | _ => cases hnames

lemma opened_of_call (hc : S.calls[i]? = some c) (hreturned : c.isReturned = false) :
    S.opened = true := (h.good c (List.mem_of_getElem? hc)).2.2 hreturned

/-! ### `StartConnect`, `StartRecv` and `StartSend` -/

lemma start (fd : Socket) (op : Operation) : Inv (S.start fd op) := by
  have hsnoc : ∀ c : Call, (∀ k, c.owns k = 0) → (∀ k, c.flies k = 0) →
      c.Good S.connectex S.opened S.heap → Inv { S with calls := S.calls ++ [c] } := by
    intro c howns hflies hgood
    refine ⟨h.safe, fun k => ?_, fun k => ?_, h.stray, h.key, h.apart, h.held, fun c' hc' => ?_,
      h.closed, h.filled⟩
    · rw [← h.own k]
      simp [howns]
    · rw [← h.fly k]
      simp [hflies]
    · rcases List.mem_append.mp hc' with hc' | hc'
      · exact h.good c' hc'
      · rwa [List.mem_singleton.mp hc']
  unfold State.start
  split_ifs with hclosed hconnect
  · refine hsnoc _ (fun _ => rfl) (fun _ => rfl) (good_of_inert rfl rfl fun hnot => ?_)
    cases hnot
  all_goals
    simp only [Bool.or_eq_true, Bool.not_eq_true', not_or, Bool.not_eq_false] at hclosed
  · exact hsnoc _ (fun _ => rfl) (fun _ => rfl) (good_of_inert rfl rfl fun _ => hclosed.1)
  · refine hsnoc _ (fun _ => rfl) (fun _ => rfl) (good_of_inert ?_ rfl fun _ => hclosed.1)
    simp [Call.connects, hconnect]

/-- The call goes on, and has no request before or after. -/
lemma relabel (hc : S.calls[i]? = some c) (hfree : c.Free) (c' : Call) (hfree' : c'.Free)
    (connectex : Bool) (hmono : S.connectex = true → connectex = true)
    (hgood : c'.Good connectex S.opened S.heap) :
    Inv { S.setCall i c' with connectex := connectex } := by
  refine ⟨h.safe, fun k => ?_, fun k => ?_, h.stray, h.key, h.apart, h.held, ?_, h.closed, h.filled⟩
  · have htotal := total_owns_set hc c' k
    have hown := h.own k
    rw [(hfree k).1, (hfree' k).1] at htotal
    dsimp only [State.setCall]
    omega
  · have htotal := total_flies_set hc c' k
    have hfly := h.fly k
    rw [(hfree k).2, (hfree' k).2] at htotal
    dsimp only [State.setCall]
    omega
  · exact good_set (fun c hc => ⟨fun hconn => hmono ((h.good c hc).1 hconn), (h.good c hc).2⟩) hgood

/-- `new WinIoRequest`. -/
lemma allocate {fd : Socket} {op : Operation} {address : Nat}
    (hc : S.calls[i]? = some (.allocate fd op)) (hvacant : S.vacant address = true) :
    Inv { S.setCall i (.fresh fd op S.heap.length) with
      heap := S.heap ++ [⟨address, op.kind, op.id, op.buffer, 0⟩] } := by
  have hopened := h.opened_of_call hc rfl
  have hnew : ∀ k, S.heap.length ≤ k → tracked k S.requests S.heap = 0 := by
    intro k hk
    refine if_neg fun hk' => ?_
    exact absurd (h.lt_of_tracked hk') (by omega)
  have htracked : ∀ k, tracked k S.requests (S.heap ++ [⟨address, op.kind, op.id, op.buffer, 0⟩]) =
      tracked k S.requests S.heap := by
    intro k
    by_cases hk : k < S.heap.length
    · rw [tracked, request_append_of_lt hk, tracked]
    · rw [hnew k (by omega)]
      refine if_neg fun hk' => ?_
      exact hk (h.lt_of_tracked (h.tracked_of_requests hk'))
  refine ⟨h.safe, fun k => ?_, fun k => ?_, h.stray, fun a k ha => ?_,
    fun j k hj hk hfj hfk heq => ?_,
    h.held, ?_, fun hclosed => ?_, fun k o ho => ?_⟩
  · have htotal : Pool.total (Call.owns k) (S.calls.set i (.fresh fd op S.heap.length)) + _ = _ :=
      Pool.total_set hc
    have hown := h.own k
    dsimp only [State.setCall]
    rw [htracked]
    simp only [Call.owns, add_zero] at htotal
    rcases lt_trichotomy k S.heap.length with hk | rfl | hk
    · rw [if_neg (by omega)] at htotal
      rw [request_append_of_lt hk]
      simp only [born, List.length_append, List.length_singleton] at hown ⊢
      rw [if_pos hk] at hown
      rw [if_pos (by omega)]
      omega
    · rw [if_pos rfl] at htotal
      simp only [born, List.length_append, List.length_singleton, request_append_length] at hown ⊢
      rw [if_neg (lt_irrefl _)] at hown
      rw [if_pos (by omega)]
      omega
    · rw [if_neg (by omega)] at htotal
      have hdefault : request S.heap k = default := request_of_le (by omega)
      rw [request_of_le (by simp; omega), ← hdefault]
      simp only [born, List.length_append, List.length_singleton] at hown ⊢
      rw [if_neg (by omega)] at hown
      rw [if_neg (by omega)]
      omega
  · have htotal : Pool.total (Call.flies k) (S.calls.set i (.fresh fd op S.heap.length)) + _ = _ :=
      Pool.total_set hc
    simp only [Call.flies, add_zero] at htotal
    dsimp only [State.setCall]
    rw [htracked, htotal]
    exact h.fly k
  · have hlt := h.lt_of_tracked (h.tracked_of_requests ha)
    dsimp only
    rw [request_append_of_lt hlt]
    exact h.key a k ha
  · -- the address of the new request is not that of one that lives
    have hold : ∀ j, j < S.heap.length → (request S.heap j).frees = 0 →
        (request S.heap j).address ≠ address := by
      intro j hj hfree
      have hmem : request S.heap j ∈ S.heap := by simp [request, List.getElem?_eq_getElem hj]
      have := List.all_eq_true.mp hvacant _ hmem
      simpa [hfree] using this
    simp only [List.length_append, List.length_singleton] at hj hk
    rcases Nat.lt_succ_iff_lt_or_eq.mp hj with hj | rfl <;>
      rcases Nat.lt_succ_iff_lt_or_eq.mp hk with hk | rfl
    · simp only [request_append_of_lt hj, request_append_of_lt hk] at hfj hfk heq
      exact h.apart j k hj hk hfj hfk heq
    · simp only [request_append_of_lt hj, request_append_length] at hfj heq
      exact absurd heq (hold j hj hfj)
    · simp only [request_append_of_lt hk, request_append_length] at hfk heq
      exact absurd heq.symm (hold k hk hfk)
    · rfl
  · refine good_set (fun c hc => ?_) ?_
    · obtain ⟨hconnects, hnamed, hrunning⟩ := h.good c hc
      refine ⟨hconnects, fun k op' hnames => ?_, hrunning⟩
      rw [request_append_of_lt (h.lt_of_named hc hnames)]
      exact hnamed k op' hnames
    · refine ⟨(h.good _ (List.mem_of_getElem? hc)).1, fun k op' hnames => ?_, fun _ => hopened⟩
      obtain ⟨rfl, rfl⟩ : S.heap.length = k ∧ op = op' := by simpa [Call.names] using hnames
      rw [request_append_length]
      rfl
  · exact absurd hopened (Bool.not_eq_true _ ▸ hclosed)
  · have hlt := h.lt_of_tracked (h.tracked_of_packet ho)
    dsimp only
    rw [request_append_of_lt hlt]
    exact h.filled k o ho

/-- No request that lives has the address of another one, so its entry is free. -/
lemma requests_eq_none {fd : Socket} {op : Operation} (hc : S.calls[i]? = some (.fresh fd op k)) :
    S.requests (request S.heap k).address = none := by
  obtain ⟨hlt, huntracked, -, hfrees, -⟩ := h.of_owns (k := k) hc (by simp [Call.owns])
  cases hentry : S.requests (request S.heap k).address with
  | none => rfl
  | some j =>
    have hj := h.tracked_of_requests hentry
    obtain rfl : j = k := h.apart j k (h.lt_of_tracked hj) hlt (h.of_tracked hj).2.2.2 hfrees
      (h.key _ j hentry)
    rw [tracked, if_pos hj] at huntracked
    cases huntracked

/-- `TrackRequest`. -/
lemma track {fd : Socket} {op : Operation} (hc : S.calls[i]? = some (.fresh fd op k)) :
    Inv ((S.trackRequest k).setCall i (.tracked fd op k)) := by
  have hopened := h.opened_of_call hc rfl
  have hnone := h.requests_eq_none hc
  obtain ⟨-, huntracked, -⟩ := h.of_owns (k := k) hc (by simp [Call.owns])
  refine ⟨h.safe, fun j => ?_, fun j => ?_, h.stray, key_update_some h.key, h.apart, h.held, ?_,
    fun hclosed => ?_, h.filled⟩
  · have htotal := total_owns_set hc (.tracked fd op k) j
    have hown := h.own j
    dsimp only [State.trackRequest, State.setCall, State.req]
    rw [tracked_update_some hnone]
    simp only [Call.owns] at htotal
    grind
  · have htotal := total_flies_set hc (.tracked fd op k) j
    have hfly := h.fly j
    dsimp only [State.trackRequest, State.setCall, State.req]
    rw [tracked_update_some hnone]
    simp only [Call.flies] at htotal
    grind
  · obtain ⟨hconnects, hnamed, -⟩ := h.good _ (List.mem_of_getElem? hc)
    exact good_set h.good ⟨hconnects, hnamed, fun _ => hopened⟩
  · exact absurd hopened (Bool.not_eq_true _ ▸ hclosed)

/-- The system takes the operation on. -/
lemma issueAccepted {fd : Socket} {op : Operation} (hc : S.calls[i]? = some (.tracked fd op k))
    (hfd : S.associated fd = true) (hsafe : (S.issue i k fd op none).bad = false) :
    Inv (S.issue i k fd op none) := by
  have hopened := h.opened_of_call hc rfl
  refine ⟨hsafe, fun j => ?_, fun j => ?_, fun j => ?_, h.key, h.apart, h.held,
    good_set h.good (good_of_inert rfl rfl fun _ => hopened), h.closed, h.filled⟩
  · have htotal := total_owns_set hc (.returned .started) j
    have hown := h.own j
    dsimp only [State.issue, State.setCall, State.touch]
    simp only [Call.owns] at htotal
    omega
  · have htotal := total_flies_set hc (.returned .started) j
    have hfly := h.fly j
    dsimp only [State.issue, State.setCall, State.touch]
    simp only [Call.flies] at htotal
    rw [hfd, List.count_append, List.count_singleton]
    grind
  · dsimp only [State.issue, State.setCall, State.touch]
    rw [hfd, List.count_append, List.count_singleton]
    simpa using h.stray j

/-- The system refuses the operation. -/
lemma issueRefused {fd : Socket} {op : Operation} {code : Int}
    (hc : S.calls[i]? = some (.tracked fd op k))
    (hsafe : (S.issue i k fd op (some code)).bad = false) :
    Inv (S.issue i k fd op (some code)) := by
  have hopened := h.opened_of_call hc rfl
  refine ⟨hsafe, fun j => ?_, fun j => ?_, h.stray, h.key, h.apart, h.held,
    good_set h.good (good_of_inert rfl rfl fun _ => hopened), h.closed, h.filled⟩
  · have htotal := total_owns_set hc (.refused k code) j
    have hown := h.own j
    dsimp only [State.issue, State.setCall, State.touch]
    simp only [Call.owns] at htotal
    omega
  · have htotal := total_flies_set hc (.refused k code) j
    have hfly := h.fly j
    dsimp only [State.issue, State.setCall, State.touch]
    simp only [Call.flies] at htotal
    omega

/-- `ConnectEx`, `WSARecv` or `WSASend`: the request is alive, and `ConnectEx` is there. -/
lemma issue {fd : Socket} {op : Operation} (code : Option Int)
    (hc : S.calls[i]? = some (.tracked fd op k)) (hfd : S.associated fd = true) :
    Inv (S.issue i k fd op code) := by
  have htracked := h.tracked_of_flies hc (k := k) (by simp [Call.flies])
  obtain ⟨-, -, -, hfrees⟩ := h.of_tracked htracked
  have hloaded : (op.kind == .connect && !S.connectex) = false := by
    have hconnects := (h.good _ (List.mem_of_getElem? hc)).1
    cases hkind : op.kind == .connect with
    | false => rfl
    | true => simp [hconnects hkind]
  have hsafe : ((S.touch k).bad || (op.kind == .connect && !S.connectex)) = false := by
    simp [hloaded, State.touch, State.req, hfrees, h.safe]
  cases code with
  | none => exact h.issueAccepted hc hfd hsafe
  | some code => exact h.issueRefused hc hsafe

omit h in
lemma removeRequest_eq (hk : S.requests (request S.heap k).address = some k) :
    S.removeRequest k = (some k,
      { S with requests := Function.update S.requests (request S.heap k).address none }) := by
  simp [State.removeRequest, State.req, hk]

/-- `RemoveRequest`, when the system has refused the operation. -/
lemma remove {code : Int} (hc : S.calls[i]? = some (.refused k code)) :
    Inv ((S.removeRequest k).2.setCall i (.removed (S.removeRequest k).1 code)) := by
  have hopened := h.opened_of_call hc rfl
  have hk := h.tracked_of_flies hc (k := k) (by simp [Call.flies])
  have htracked : tracked k S.requests S.heap = 1 := if_pos hk
  rw [removeRequest_eq hk]
  refine ⟨h.safe, fun j => ?_, fun j => ?_, h.stray, key_update_none h.key, h.apart, h.held,
    good_set h.good (good_of_inert rfl rfl fun _ => hopened), fun hclosed => ?_, h.filled⟩
  · have htotal := total_owns_set hc (.removed (some k) code) j
    have hown := h.own j
    dsimp only [State.setCall]
    rw [tracked_update_none hk]
    simp only [Call.owns] at htotal
    grind
  · have htotal := total_flies_set hc (.removed (some k) code) j
    have hfly := h.fly j
    dsimp only [State.setCall]
    rw [tracked_update_none hk]
    simp only [Call.flies] at htotal
    grind
  · exact absurd hopened (Bool.not_eq_true _ ▸ hclosed)

/-! ### What is done to a request -/

/-- A request is changed, but for its address; `frees` counts how often it was deleted. -/
lemma modify {f : WinIoRequest → WinIoRequest} (hk : k < S.heap.length)
    (haddress : ∀ r, (f r).address = r.address) (hfrees : ∀ r, r.frees ≤ (f r).frees) :
    (∀ a j, S.requests a = some j → (request (S.heap.modify k f) j).address = a) ∧
    (∀ j l, j < (S.heap.modify k f).length → l < (S.heap.modify k f).length →
      (request (S.heap.modify k f) j).frees = 0 → (request (S.heap.modify k f) l).frees = 0 →
      (request (S.heap.modify k f) j).address = (request (S.heap.modify k f) l).address →
        j = l) := by
  have hsame : ∀ j, (request (S.heap.modify k f) j).address = (request S.heap j).address := by
    intro j
    rw [request_modify f hk]
    split_ifs with hj
    · rw [haddress, hj]
    · rfl
  have hle : ∀ j, (request (S.heap.modify k f) j).frees = 0 → (request S.heap j).frees = 0 := by
    intro j hj
    rw [request_modify f hk] at hj
    split_ifs at hj with hjk
    · have := hfrees (request S.heap k)
      rw [hjk]
      omega
    · exact hj
  constructor
  · intro a j ha
    rw [hsame]
    exact h.key a j ha
  · intro j l hj hl hfj hfl heq
    rw [List.length_modify] at hj hl
    rw [hsame, hsame] at heq
    exact h.apart j l hj hl (hle j hfj) (hle l hfl) heq

omit h in
lemma request_delete (hk : k < S.heap.length) (j : Nat) :
    request (S.delete k).heap j =
      { request S.heap j with frees := (request S.heap j).frees + if j = k then 1 else 0 } := by
  rw [State.delete, request_modify _ hk]
  split_ifs with hj
  · rw [hj]
  · rfl

/-- A request is deleted, which nobody needs any more. -/
lemma delete (calls : List Call) (refs : Nat → Nat) (hk : k < S.heap.length)
    (hfrees : (request S.heap k).frees = 0)
    (howns : ∀ j, Pool.total (Call.owns j) calls + shared j refs + (if j = k then 1 else 0) =
      Pool.total (Call.owns j) S.calls + shared j S.refs)
    (hflies : ∀ j, Pool.total (Call.flies j) calls = Pool.total (Call.flies j) S.calls)
    (hheld : ∀ j, S.wait.collected.countP (fun ev => ev.data == j) ≤ refs j)
    (hgood : ∀ c ∈ calls, c.Good S.connectex S.opened S.heap) :
    Inv { S.delete k with calls := calls, refs := refs } := by
  obtain ⟨hkey, hapart⟩ := h.modify hk (f := fun r => { r with frees := r.frees + 1 })
    (fun _ => rfl) fun r => Nat.le_succ r.frees
  have htracked : ∀ j, tracked j S.requests (S.delete k).heap = tracked j S.requests S.heap :=
    fun j => tracked_modify (fun _ => rfl) hk
  refine ⟨?_, fun j => ?_, fun j => ?_, h.stray, hkey, hapart, hheld, fun c hc => ?_, h.closed,
    fun j o ho => ?_⟩
  · simp [State.delete, State.touch, State.req, hfrees, h.safe]
  · have hown := h.own j
    have hmove := howns j
    have hborn : born j (S.delete k).heap = born j S.heap := by
      simp [State.delete, born, List.length_modify]
    change _ + tracked j S.requests (S.delete k).heap + _ + forgotten j S.lost + _ = _
    rw [htracked, request_delete hk, hborn]
    dsimp only
    omega
  · change _ = tracked j S.requests (S.delete k).heap
    rw [htracked, ← h.fly j, ← hflies j]
    rfl
  · obtain ⟨hconnects, hnamed, hrunning⟩ := hgood c hc
    refine ⟨hconnects, fun j op hnames => ?_, hrunning⟩
    dsimp only
    rw [request_delete hk]
    exact hnamed j op hnames
  · dsimp only
    rw [request_delete hk]
    exact h.filled j o ho

/-- The call deletes the request that the system has refused. -/
lemma deleteRefused {code : Int} (hc : S.calls[i]? = some (.removed (some k) code)) :
    Inv ((S.delete k).setCall i (.returned (.failed code))) := by
  have hopened := h.opened_of_call hc rfl
  obtain ⟨hlt, -, -, hfrees, -⟩ := h.of_owns (k := k) hc (by simp [Call.owns])
  refine h.delete (S.calls.set i (.returned (.failed code))) S.refs hlt hfrees (fun j => ?_)
    (fun j => ?_) h.held (good_set h.good (good_of_inert rfl rfl fun _ => hopened))
  · have htotal := total_owns_set hc (.returned (.failed code)) j
    simp only [Call.owns] at htotal
    omega
  · have htotal := total_flies_set hc (.returned (.failed code)) j
    simp only [Call.flies] at htotal
    omega

/-- Every step of a call. -/
lemma callStep {address : Nat} {code : Option Int} {S' : State} (hc : S.calls[i]? = some c)
    (hfd : c.onPort S.associated = true)
    (hstep : S.callStep i address code c = some S') : Inv S' := by
  have hinert : ∀ c' : Call, c.Free → c'.Free → c'.connects = false → c'.names = none →
      c.isReturned = false → Inv (S.setCall i c') := by
    intro c' hfree hfree' hconnects hnames hreturned
    exact h.relabel hc hfree c' hfree' S.connectex id
      (good_of_inert hconnects hnames fun _ => h.opened_of_call hc hreturned)
  cases c with
  | check fd op =>
    obtain rfl := Option.some.inj hstep
    split_ifs with hloaded
    · refine h.relabel hc (fun _ => ⟨rfl, rfl⟩) (.allocate fd op) (fun _ => ⟨rfl, rfl⟩)
        S.connectex id
        ⟨fun _ => hloaded, fun _ _ hnames => ?_, fun _ => h.opened_of_call hc rfl⟩
      cases hnames
    · exact hinert _ (fun _ => ⟨rfl, rfl⟩) (fun _ => ⟨rfl, rfl⟩) rfl rfl rfl
  | ioctl fd op =>
    cases code with
    | none =>
      obtain rfl := Option.some.inj hstep
      exact hinert _ (fun _ => ⟨rfl, rfl⟩) (fun _ => ⟨rfl, rfl⟩) rfl rfl rfl
    | some code =>
      obtain rfl := Option.some.inj hstep
      exact hinert _ (fun _ => ⟨rfl, rfl⟩) (fun _ => ⟨rfl, rfl⟩) rfl rfl rfl
  | store fd op =>
    obtain rfl := Option.some.inj hstep
    refine h.relabel hc (fun _ => ⟨rfl, rfl⟩) (.allocate fd op) (fun _ => ⟨rfl, rfl⟩) true
      (fun _ => rfl) ⟨fun _ => rfl, fun _ _ hnames => ?_, fun _ => h.opened_of_call hc rfl⟩
    cases hnames
  | allocate fd op =>
    obtain ⟨hvacant, heq⟩ := Option.ite_none_right_eq_some.mp hstep
    obtain rfl := Option.some.inj heq
    exact h.allocate hc hvacant
  | fresh fd op k =>
    obtain rfl := Option.some.inj hstep
    exact h.track hc
  | tracked fd op k =>
    obtain rfl := Option.some.inj hstep
    exact h.issue code hc hfd
  | refused k code =>
    obtain rfl := Option.some.inj hstep
    exact h.remove hc
  | removed req code =>
    cases req with
    | none =>
      obtain rfl := Option.some.inj hstep
      exact hinert _ (fun _ => ⟨rfl, rfl⟩) (fun _ => ⟨rfl, rfl⟩) rfl rfl rfl
    | some k =>
      obtain rfl := Option.some.inj hstep
      exact h.deleteRefused hc
  | returned result => cases hstep

/-! ### The system completes an operation -/

/-- An operation that the system has is in no call and in no packet, and its request lives. -/
lemma of_pending {reported : Bool} (hmem : (k, reported) ∈ S.pending) :
    k < S.heap.length ∧ (request S.heap k).frees = 0 ∧ Pool.total (Call.owns k) S.calls = 0 ∧
      Pool.total (Call.flies k) S.calls = 0 ∧ S.refs k = 0 ∧
        (packets S.wait S.queue).countP (Packet.isFor k) = 0 := by
  have hown := h.own k
  have hfly := h.fly k
  have hstray := h.stray k
  have hpos := List.count_pos_iff.mpr hmem
  have hborn : born k S.heap ≤ 1 := born_le_one
  have hforgotten : forgotten k S.lost ≤ 1 := by
    unfold forgotten
    split_ifs <;> omega
  have htracked : tracked k S.requests S.heap ≤ 1 := by
    unfold tracked
    split_ifs <;> omega
  have hone : tracked k S.requests S.heap + forgotten k S.lost = 1 := by
    cases reported with
    | true => omega
    | false => omega
  have hshared : shared k S.refs = 0 := by omega
  refine ⟨?_, by omega, by omega, ?_, ?_, ?_⟩
  · by_contra hge
    rw [born, if_neg hge] at hown
    omega
  · cases reported with
    | true => omega
    | false => omega
  · by_contra hne
    rw [shared, if_pos (Nat.pos_of_ne_zero hne)] at hshared
    cases hshared
  · cases reported with
    | true => omega
    | false => omega

omit h in
lemma one_le_of_names {op : Operation} (hnames : c.names = some (k, op)) :
    1 ≤ c.owns k + c.flies k := by
  cases c with
  | fresh fd op' k' =>
    obtain ⟨rfl, -⟩ : k' = k ∧ op' = op := by simpa [Call.names] using hnames
    simp [Call.owns]
  | tracked fd op' k' =>
    obtain ⟨rfl, -⟩ : k' = k ∧ op' = op := by simpa [Call.names] using hnames
    simp [Call.flies]
  | _ => cases hnames

omit h in
lemma request_fill (hk : k < S.heap.length) (received : List Byte) (hj : j ≠ k) :
    request (S.fill k received).heap j = request S.heap j := by
  rw [State.fill, request_modify _ hk, if_neg hj]

omit h in
lemma request_fill_self (hk : k < S.heap.length) (received : List Byte) :
    request (S.fill k received).heap k =
      if (request S.heap k).operation = .recv then
        { request S.heap k with
          buffer := received ++ (request S.heap k).buffer.drop received.length }
      else request S.heap k := by
  rw [State.fill, request_modify _ hk, if_pos rfl]

/-- The system writes into the buffer of a request that it has. -/
lemma fill {reported : Bool} (hmem : (k, reported) ∈ S.pending) (received : List Byte) :
    Inv (S.fill k received) := by
  obtain ⟨hlt, hfrees, hnotOwned, hnotFlying, -, hnoPacket⟩ := h.of_pending hmem
  have haddress : ∀ r : WinIoRequest, (if r.operation = .recv then
      { r with buffer := received ++ r.buffer.drop received.length } else r).address =
        r.address := by
    intro r
    split_ifs <;> rfl
  have htracked : ∀ j, tracked j S.requests (S.fill k received).heap =
      tracked j S.requests S.heap := fun j => tracked_modify haddress hlt
  obtain ⟨hkey, hapart⟩ := h.modify hlt haddress fun r => by split_ifs <;> exact le_rfl
  refine ⟨?_, fun j => ?_, fun j => ?_, h.stray, hkey, hapart, h.held, fun c hc => ?_, h.closed,
    fun j o hj => ?_⟩
  · simp [State.fill, State.touch, State.req, hfrees, h.safe]
  · have hsame : (request (S.fill k received).heap j).frees = (request S.heap j).frees := by
      rcases eq_or_ne j k with rfl | hj
      · rw [request_fill_self hlt]
        split_ifs <;> rfl
      · rw [request_fill hlt _ hj]
    have hborn : born j (S.fill k received).heap = born j S.heap := by
      simp [State.fill, born, List.length_modify]
    change _ + tracked j S.requests (S.fill k received).heap + _ + _ + _ = _
    rw [htracked, hsame, hborn]
    exact h.own j
  · change _ = tracked j S.requests (S.fill k received).heap
    rw [htracked]
    exact h.fly j
  · obtain ⟨hconnects, hnamed, hrunning⟩ := h.good c hc
    refine ⟨hconnects, fun j op hnames => ?_, hrunning⟩
    have hj : j ≠ k := by
      rintro rfl
      obtain ⟨i, hi⟩ := List.mem_iff_getElem?.mp hc
      have howns : c.owns j ≤ Pool.total (Call.owns j) S.calls := Pool.le_total hi
      have hflies : c.flies j ≤ Pool.total (Call.flies j) S.calls := Pool.le_total hi
      have hone := one_le_of_names hnames
      omega
    rw [request_fill hlt _ hj]
    exact hnamed j op hnames
  · have hne : j ≠ k := by
      rintro rfl
      have hnot := List.countP_eq_zero.mp hnoPacket _ hj
      simp [Packet.isFor] at hnot
    rw [request_fill hlt _ hne]
    exact h.filled j o hj

/-- The operation goes from the system to the queue. -/
lemma land {o : Outcome} (hmem : (k, true) ∈ S.pending)
    (hfilled : (request S.heap k).operation = .recv → o.error = none →
      (request S.heap k).buffer.take o.bytes = o.received) :
    Inv { S with
      pending := S.pending.erase (k, true), queue := S.queue ++ [.completion k o] } := by
  refine ⟨h.safe, h.own, fun j => ?_, fun j => ?_, h.key, h.apart, h.held, h.good,
    fun hclosed => ?_,
    fun j o' hj => ?_⟩
  · have hfly := h.fly j
    have hpos := List.count_pos_iff.mpr hmem
    simp only [packets, ← List.append_assoc, List.countP_append, List.countP_singleton,
      List.count_erase, Packet.isFor] at hfly ⊢
    grind
  · have hstray := h.stray j
    simpa [List.count_erase] using hstray
  · have htracked := h.tracked_of_pending hmem
    rw [(h.closed hclosed).1] at htracked
    cases htracked
  · simp only [packets, ← List.append_assoc, List.mem_append, List.mem_singleton,
      Packet.completion.injEq] at hj
    rcases hj with hj | ⟨rfl, rfl⟩
    · exact h.filled j o' (List.mem_append.mpr hj)
    · exact hfilled

/-- The operation completes without being reported. -/
lemma vanish (k : Nat) : Inv { S with pending := S.pending.erase (k, false) } := by
  refine ⟨h.safe, h.own, fun j => ?_, fun j => ?_, h.key, h.apart, h.held, h.good, h.closed,
    h.filled⟩
  · have hfly := h.fly j
    simpa [List.count_erase] using hfly
  · exact (List.Sublist.count_le _ List.erase_sublist).trans (h.stray j)

/-- What was received stands at the front of the buffer. -/
lemma filled_of_fits {reported : Bool} {o : Outcome} (hmem : (k, reported) ∈ S.pending)
    (hfits : o.Fits (S.req k).op)
    (hrecv : (request (S.fill k o.received).heap k).operation = .recv) (herror : o.error = none) :
    (request (S.fill k o.received).heap k).buffer.take o.bytes = o.received := by
  obtain ⟨hlt, -⟩ := h.of_pending hmem
  rw [request_fill_self hlt] at hrecv ⊢
  split_ifs at hrecv ⊢ with hop
  · rw [← hfits.2.2 hop herror, List.take_left']
    rfl
  · exact absurd hrecv hop

lemma complete {reported : Bool} {o : Outcome} {S' : State}
    (hstep : S.complete k reported o = some S') : Inv S' := by
  obtain ⟨⟨hmem, hfits⟩, heq⟩ := Option.ite_none_right_eq_some.mp hstep
  obtain rfl := Option.some.inj heq
  cases reported with
  | true => exact (h.fill hmem o.received).land hmem (h.filled_of_fits hmem hfits)
  | false => exact (h.fill hmem o.received).vanish k

/-! ### `Wait` -/

lemma beginWait {S' : State} (hstep : S.beginWait = some S') : Inv S' := by
  unfold State.beginWait at hstep
  split at hstep
  · next hidle =>
    obtain rfl := Option.some.inj hstep
    split_ifs with hopened
    · refine ⟨h.safe, h.own, fun k => ?_, h.stray, h.key, h.apart, fun k => Nat.zero_le _, h.good,
        fun hclosed => absurd hopened (Bool.not_eq_true _ ▸ hclosed), fun k o hk => ?_⟩
      · have hfly := h.fly k
        rwa [hidle] at hfly
      · refine h.filled k o ?_
        rwa [hidle]
    · exact h
  · cases hstep

/-- The poll thread takes a packet, or `Wait` ends. -/
lemma dequeue {S' : State} (hstep : S.dequeue = some S') : Inv S' := by
  unfold State.dequeue at hstep
  split at hstep
  · next events hwait =>
    have hopened : S.opened = false → False := by
      intro hclosed
      have hidle := (h.closed hclosed).2.1
      rw [hwait] at hidle
      cases hidle
    have hfly := h.fly
    have hfilled := h.filled
    have hheld := h.held
    simp only [hwait, packets, WaitPc.taken, List.nil_append, WaitPc.collected]
      at hfly hfilled hheld
    split at hstep
    · next hqueue =>
      obtain rfl := Option.some.inj hstep
      exact ⟨h.safe, h.own, hfly, h.stray, h.key, h.apart, fun _ => Nat.zero_le _, h.good,
        fun hclosed => (hopened hclosed).elim, hfilled⟩
    · next queue hqueue =>
      obtain rfl := Option.some.inj hstep
      rw [hqueue] at hfly hfilled
      refine ⟨h.safe, h.own, fun k => ?_, h.stray, h.key, h.apart, fun _ => Nat.zero_le _, h.good,
        fun hclosed => (hopened hclosed).elim,
        fun k o hk => hfilled k o (List.mem_cons_of_mem _ hk)⟩
      rw [← hfly k, List.countP_cons_of_neg (by simp [Packet.isFor])]
      rfl
    · next k o queue hqueue =>
      obtain rfl := Option.some.inj hstep
      rw [hqueue] at hfly hfilled
      exact ⟨h.safe, h.own, hfly, h.stray, h.key, h.apart, hheld, h.good,
        fun hclosed => (hopened hclosed).elim, hfilled⟩
  · cases hstep

/-- The poll thread finds the request of the packet, which nobody else has. -/
lemma untrack_eq {o : Outcome} {events : List PollEvent} (hwait : S.wait = .dequeued k o events) :
    S.requests (request S.heap k).address = some k ∧ S.untrack = some { S with
      requests := Function.update S.requests (request S.heap k).address none
      refs := Function.update S.refs k 1
      wait := if events.length + 1 < maxCompletions then .polling (events ++ [S.event k o])
        else .idle } := by
  have hk : S.requests (request S.heap k).address = some k := by
    refine h.tracked_of_packet (o := o) ?_
    rw [hwait]
    exact List.mem_cons_self
  obtain ⟨-, hrefs, -, hfrees⟩ := h.of_tracked hk
  refine ⟨hk, ?_⟩
  simp [State.untrack, hwait, State.untrackRequest, removeRequest_eq hk, State.touch, State.req,
    hrefs,
    hfrees, h.safe]

lemma untrack {S' : State} (hstep : S.untrack = some S') : Inv S' := by
  cases hwait : S.wait with
  | idle => simp [State.untrack, hwait] at hstep
  | polling events => simp [State.untrack, hwait] at hstep
  | dequeued k o events =>
    obtain ⟨hk, heq⟩ := h.untrack_eq hwait
    rw [heq] at hstep
    obtain rfl := Option.some.inj hstep
    obtain ⟨-, hrefs, -, -⟩ := h.of_tracked hk
    have htracked : tracked k S.requests S.heap = 1 := if_pos hk
    have hopened : S.opened = false → False := by
      intro hclosed
      rw [(h.closed hclosed).1] at hk
      cases hk
    have hempty : ∀ pc : WaitPc, pc = (if events.length + 1 < maxCompletions then
        .polling (events ++ [S.event k o]) else .idle) → pc.taken = [] ∧
          (pc.collected = events ++ [S.event k o] ∨ pc.collected = []) := by
      rintro pc rfl
      split_ifs
      · exact ⟨rfl, .inl rfl⟩
      · exact ⟨rfl, .inr rfl⟩
    obtain ⟨htaken, hcollected⟩ := hempty _ rfl
    refine ⟨h.safe, fun j => ?_, fun j => ?_, h.stray, key_update_none h.key, h.apart, fun j => ?_,
      h.good, fun hclosed => (hopened hclosed).elim, fun j o' hj => ?_⟩
    · have hown := h.own j
      dsimp only
      rw [tracked_update_none hk]
      unfold shared at hown ⊢
      rcases eq_or_ne j k with rfl | hj
      · rw [Function.update_self]
        rw [hrefs] at hown
        simp only [lt_irrefl, if_false, if_true, Nat.zero_lt_one] at hown ⊢
        omega
      · rw [Function.update_of_ne hj, if_neg hj]
        exact hown
    · have hfly := h.fly j
      dsimp only
      rw [tracked_update_none hk]
      rw [packets, htaken, List.nil_append]
      simp only [packets, hwait, WaitPc.taken, List.singleton_append, List.countP_cons,
        Packet.isFor] at hfly
      grind
    · have hheld := h.held j
      rw [hwait] at hheld
      have hevents : (events ++ [S.event k o]).countP (fun ev => ev.data == j) ≤
          Function.update S.refs k 1 j := by
        rw [List.countP_append, List.countP_singleton]
        rcases eq_or_ne j k with rfl | hj
        · rw [hrefs] at hheld
          simp only [WaitPc.collected] at hheld
          rw [Function.update_self]
          split_ifs <;> omega
        · rw [Function.update_of_ne hj, if_neg (by simp [State.event, hj.symm])]
          exact hheld
      rcases hcollected with hcollected | hcollected
      · dsimp only
        rwa [hcollected]
      · dsimp only
        rw [hcollected]
        exact Nat.zero_le _
    · refine h.filled j o' ?_
      rw [packets, htaken] at hj
      exact List.mem_append_right _ hj

/-! ### The events are used -/

omit h in
lemma shared_update {n : Nat} : shared j (Function.update S.refs k n) =
    if j = k then (if 0 < n then 1 else 0) else shared j S.refs := by
  unfold shared
  rcases eq_or_ne j k with rfl | hj
  · simp
  · simp [hj]

/-- The number of `shared_ptr`s to a request changes, but not whether there is one. -/
lemma recount {n : Nat} (hrefs : 0 < S.refs k) (hpos : 0 < n)
    (hn : S.wait.collected.countP (fun ev => ev.data == k) ≤ n) :
    Inv { S with refs := Function.update S.refs k n } := by
  refine ⟨h.safe, fun j => ?_, h.fly, h.stray, h.key, h.apart, fun j => ?_, h.good, h.closed,
    h.filled⟩
  · have hown := h.own j
    dsimp only
    rw [shared_update, if_pos hpos]
    rcases eq_or_ne j k with rfl | hj
    · rw [shared, if_pos hrefs] at hown
      rw [if_pos rfl]
      exact hown
    · rw [if_neg hj]
      exact hown
  · rcases eq_or_ne j k with rfl | hj
    · dsimp only
      rwa [Function.update_self]
    · dsimp only
      rw [Function.update_of_ne hj]
      exact h.held j

/-- What a `shared_ptr` points to is nobody else's, and lives. -/
lemma of_shared (hrefs : 0 < S.refs k) : k < S.heap.length ∧ (request S.heap k).frees = 0 := by
  have hown := h.own k
  have hborn : born k S.heap ≤ 1 := born_le_one
  rw [shared, if_pos hrefs] at hown
  refine ⟨?_, by omega⟩
  by_contra hge
  rw [born, if_neg hge] at hown
  omega

lemma copyRef {S' : State} (hstep : S.copyRef k = some S') : Inv S' := by
  obtain ⟨hrefs, heq⟩ := Option.ite_none_right_eq_some.mp hstep
  obtain rfl := Option.some.inj heq
  exact h.recount hrefs (Nat.succ_pos _) ((h.held k).trans (Nat.le_succ _))

lemma dropRef {S' : State} (hstep : S.dropRef k = some S') : Inv S' := by
  obtain ⟨hlt, heq⟩ := Option.ite_none_right_eq_some.mp hstep
  unfold State.collectedRefs at hlt
  split_ifs at heq with hone
  · obtain rfl := Option.some.inj heq
    obtain ⟨hlength, hfrees⟩ := h.of_shared (k := k) (by omega)
    refine h.delete S.calls (Function.update S.refs k 0) hlength hfrees (fun j => ?_) (fun _ => rfl)
      (fun j => ?_) h.good
    · rw [shared_update, if_neg (lt_irrefl 0)]
      rcases eq_or_ne j k with rfl | hj
      · simp [shared, hone]
      · simp [hj]
    · rcases eq_or_ne j k with rfl | hj
      · rw [Function.update_self]
        omega
      · rw [Function.update_of_ne hj]
        exact h.held j
  · obtain rfl := Option.some.inj heq
    exact h.recount (by omega) (by omega) (by omega)

lemma readData {S' : State} (hstep : S.readData k = some S') : Inv S' := by
  obtain ⟨hrefs, heq⟩ := Option.ite_none_right_eq_some.mp hstep
  obtain rfl := Option.some.inj heq
  obtain ⟨-, hfrees⟩ := h.of_shared hrefs
  refine ⟨?_, h.own, h.fly, h.stray, h.key, h.apart, h.held, h.good, h.closed, h.filled⟩
  simp [State.touch, State.req, hfrees, h.safe]

end Inv

/-- Every step keeps the invariant. -/
lemma Inv.step {l : Label} {S' : State} (h : Inv S) (hok : Ok S l) (hstep : step S l = some S') :
    Inv S' := by
  cases l with
  | init created =>
    obtain rfl := Option.some.inj hstep
    exact h.init created
  | shutdown =>
    obtain rfl := Option.some.inj hstep
    exact h.shutdown hok.1 hok.2
  | add fd created =>
    obtain rfl := Option.some.inj hstep
    exact h.add fd created
  | closeSocket fd =>
    obtain rfl := Option.some.inj hstep
    exact h.associate _
  | wake =>
    obtain rfl := Option.some.inj hstep
    exact h.wake
  | start fd op =>
    obtain rfl := Option.some.inj hstep
    exact h.start fd op
  | call i address code =>
    obtain ⟨c, hc, hcall⟩ := Option.bind_eq_some_iff.mp hstep
    simp only [Ok, hc, Option.all_some] at hok
    exact h.callStep hc hok hcall
  | complete k reported o => exact h.complete hstep
  | beginWait => exact h.beginWait hstep
  | dequeue => exact h.dequeue hstep
  | untrack => exact h.untrack hstep
  | copyRef k => exact h.copyRef hstep
  | dropRef k => exact h.dropRef hstep
  | readData k => exact h.readData hstep

lemma inv_of_exec {ls : List Label} (hexec : Run.exec step {} ls = some S)
    (hok : Run.Meets step Ok {} ls) : Inv S :=
  Run.exec_invariant Ok (fun _ _ _ h hok hstep => h.step hok hstep) hexec hok inv_init

end Connx.Poll.Iocp
