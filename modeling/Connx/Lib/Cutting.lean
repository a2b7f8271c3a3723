import Connx.Lib.Framing

/-!
# Streams written as frames, and two ways of marking them

A stream that was written frame by frame is read as the same frames, whatever part of it has
arrived. Two decoders are given: a frame ends with the first delimiter, or after a fixed number of
symbols. What their frames are can be said of the whole stream without a decoder: the pieces between
the delimiters, and the chunks of one size.
-/

namespace Framing

variable {α : Type*} {dec : List α → Answer} {x y : List α} {ms : List (List α)}

/-! ### Streams written as frames -/

lemma Parses.flatten (hp : Parses dec x ms y) : ms.flatten ++ y = x := by
  induction hp with
  | nil x => rfl
  | @cons x y ms n hx _ ih =>
    rw [List.flatten_cons, List.append_assoc, ih]
    exact List.take_append_drop n x

/-- A property of frames that every frame at the front of a stream has. -/
lemma Parses.forall_mem {P : List α → Prop} (hP : ∀ x n, dec x = .frame n → P (x.take n))
    (hp : Parses dec x ms y) : ∀ m ∈ ms, P m := by
  induction hp with
  | nil x => simp
  | cons hx _ ih =>
    intro m hm
    rcases List.mem_cons.mp hm with rfl | hm
    · exact hP _ _ hx
    · exact ih m hm

/-- The symbols of `m` are one frame. -/
def IsFrame (dec : List α → Answer) (m : List α) : Prop := dec m = .frame m.length

instance (dec : List α → Answer) (m : List α) : Decidable (IsFrame dec m) :=
  inferInstanceAs (Decidable (dec m = .frame m.length))

namespace PrefixStable

variable (h : PrefixStable dec)

include h

lemma parses_flatten (hms : ∀ m ∈ ms, IsFrame dec m) (y : List α) :
    Parses dec (ms.flatten ++ y) ms y := by
  induction ms with
  | nil => exact .nil y
  | cons m ms ih =>
    have hm : dec (m ++ (ms.flatten ++ y)) = .frame m.length :=
      h.frame (hms m List.mem_cons_self) _
    have hrest := ih fun m' hm' => hms m' (List.mem_cons_of_mem _ hm')
    have hcons := Parses.cons hm (by rwa [List.drop_left])
    rwa [List.take_left, ← List.append_assoc] at hcons

lemma frames_nil : frames dec [] = [] := by
  refine (cut_of_no_frame fun n hn => ?_).1
  exact absurd (h.le hn) (Nat.not_le.mpr (h.pos hn))

/-- A stream written as frames is read as these frames. -/
lemma frames_flatten (hms : ∀ m ∈ ms, IsFrame dec m) : frames dec ms.flatten = ms := by
  have hp := h.parses_flatten hms []
  rw [List.append_nil] at hp
  rw [(h.cut_of_parses hp).1, h.frames_nil, List.append_nil]

/-- What has been cut off the part that arrived was written. -/
lemma prefix_of_written (hms : ∀ m ∈ ms, IsFrame dec m) {ms' : List (List α)}
    (hp : Parses dec x ms' y) (hx : x <+: ms.flatten) : ms' <+: ms := by
  obtain ⟨z, hz⟩ := hx
  have hwhole := h.prefix_of_parses (h.parses_append hp z)
  rwa [hz, h.frames_flatten hms] at hwhole

end PrefixStable

/-! ### Delimiters -/

section delimited

variable [BEq α] [LawfulBEq α] {d : α}

/-- A frame ends with the first delimiter. -/
def delimited (d : α) (x : List α) : Answer :=
  match x.findIdx? (· == d) with
  | some i => .frame (i + 1)
  | none => .more

lemma findIdx?_of_not_mem (hd : d ∉ x) : x.findIdx? (· == d) = none := by
  rw [List.findIdx?_eq_none_iff]
  intro a ha
  rw [beq_eq_false_iff_ne]
  rintro rfl
  exact hd ha

lemma delimited_append {body : List α} (hbody : d ∉ body) (rest : List α) :
    delimited d (body ++ d :: rest) = .frame (body.length + 1) := by
  simp [delimited, List.findIdx?_append, findIdx?_of_not_mem hbody, List.findIdx?_cons]

lemma delimited_eq_more : delimited d x = .more ↔ d ∉ x := by
  constructor
  · intro hmore hd
    obtain ⟨body, rest, rfl, hbody⟩ := List.eq_append_cons_of_mem hd
    rw [delimited_append hbody] at hmore
    cases hmore
  · intro hd
    simp [delimited, findIdx?_of_not_mem hd]

lemma delimited_eq_frame {n : Nat} (h : delimited d x = .frame n) :
    ∃ body rest, x = body ++ d :: rest ∧ d ∉ body ∧ n = body.length + 1 := by
  have hd : d ∈ x := by
    by_contra hd
    rw [delimited_eq_more.mpr hd] at h
    cases h
  obtain ⟨body, rest, rfl, hbody⟩ := List.eq_append_cons_of_mem hd
  refine ⟨body, rest, rfl, hbody, ?_⟩
  rw [delimited_append hbody] at h
  exact (Answer.frame.inj h).symm

omit [LawfulBEq α] in
lemma delimited_ne_error : delimited d x ≠ .error := by
  unfold delimited
  split <;> simp

lemma prefixStable_delimited (d : α) : PrefixStable (delimited d) where
  pos h := by
    obtain ⟨body, rest, rfl, -, rfl⟩ := delimited_eq_frame h
    exact Nat.succ_pos _
  le h := by
    obtain ⟨body, rest, rfl, -, rfl⟩ := delimited_eq_frame h
    simp
  frame h y := by
    obtain ⟨body, rest, rfl, hbody, rfl⟩ := delimited_eq_frame h
    rw [List.append_assoc, List.cons_append, delimited_append hbody]
  error h := absurd h delimited_ne_error

/-- A frame holds one delimiter, at its end. -/
lemma delimited_take {n : Nat} (h : delimited d x = .frame n) :
    ∃ body, x.take n = body ++ [d] ∧ d ∉ body := by
  obtain ⟨body, rest, rfl, hbody, rfl⟩ := delimited_eq_frame h
  exact ⟨body, by simp [List.take_append], hbody⟩

/-- The frames are the pieces between the delimiters. -/
lemma Parses.splitOn (hp : Parses (delimited d) x ms y) :
    x.splitOn d = ms.map List.dropLast ++ y.splitOn d := by
  induction hp with
  | nil x => rfl
  | cons hx _ ih =>
    obtain ⟨body, rest, rfl, hbody, rfl⟩ := delimited_eq_frame hx
    have htake : (body ++ d :: rest).take (body.length + 1) = body ++ [d] := by
      simp [List.take_append]
    have hdrop : (body ++ d :: rest).drop (body.length + 1) = rest := by
      simp [List.drop_append]
    have hsplit : (body ++ d :: rest).splitOn d = body.splitOn d ++ rest.splitOn d :=
      List.splitOnP_append_cons body rest (by simp)
    rw [hdrop] at ih
    rw [htake, hsplit, ih, List.splitOn_eq_singleton hbody]
    simp

end delimited

/-! ### Chunks of one size -/

section fixed

variable {size : Nat}

/-- A frame has `size` symbols. -/
def fixed (size : Nat) (x : List α) : Answer := if x.length < size then .more else .frame size

lemma fixed_eq_frame {n : Nat} : fixed size x = .frame n ↔ size ≤ x.length ∧ size = n := by
  unfold fixed
  split_ifs with hlt
  · simp [hlt]
  · simp [Nat.le_of_not_lt hlt]

lemma fixed_eq_more : fixed size x = .more ↔ x.length < size := by
  unfold fixed
  split_ifs with hlt <;> simp [hlt]

lemma fixed_ne_error : fixed size x ≠ .error := by
  unfold fixed
  split_ifs <;> simp

lemma prefixStable_fixed (hsize : 0 < size) : PrefixStable (fixed size : List α → Answer) where
  pos h := by
    obtain ⟨-, rfl⟩ := fixed_eq_frame.mp h
    exact hsize
  le h := by
    obtain ⟨hle, rfl⟩ := fixed_eq_frame.mp h
    exact hle
  frame h y := by
    obtain ⟨hle, rfl⟩ := fixed_eq_frame.mp h
    refine fixed_eq_frame.mpr ⟨?_, rfl⟩
    rw [List.length_append]
    exact Nat.le_add_right_of_le hle
  error h := absurd h fixed_ne_error

lemma length_take_of_fixed {n : Nat} (h : fixed size x = .frame n) : (x.take n).length = size := by
  obtain ⟨hle, rfl⟩ := fixed_eq_frame.mp h
  rw [List.length_take, Nat.min_eq_left hle]

/-- Counting the symbols. -/
lemma Parses.length_fixed (hp : Parses (fixed size) x ms y) :
    x.length = ms.length * size + y.length := by
  induction hp with
  | nil x => simp
  | cons hx _ ih =>
    obtain ⟨hle, rfl⟩ := fixed_eq_frame.mp hx
    rw [List.length_drop] at ih
    rw [List.length_cons, Nat.succ_mul]
    omega

end fixed

end Framing
