import Connx.Net.ResolveAddress

/-!
# Host and port

The grammar `connx_split_host_port` accepts, and that splitting undoes joining. `Parses` is the
grammar as a relation between a name and its two parts; the parser decides it and never throws, and
a name outside it leaves the host empty, which is all the resolver looks at.
-/

namespace Connx.Resolve

/-- The names that are accepted, with their host and port. -/
inductive Parses : Text → Text → Text → Prop
  /-- A host name or a plain IPv6 address: no colon, or several. -/
  | bare {name : Text} : Unbracketed name → name.count ':' ≠ 1 → Parses name name []
  /-- Exactly one colon. -/
  | pair {h p : Text} : Unbracketed (h ++ ':' :: p) → ':' ∉ h → ':' ∉ p →
      Parses (h ++ ':' :: p) h p
  | bracketed {h : Text} : ':' ∈ h → ']' ∉ h → Parses ('[' :: (h ++ [']'])) h []
  | bracketedPort {h p : Text} : ':' ∈ h → ']' ∉ h → Parses ('[' :: (h ++ ']' :: ':' :: p)) h p

/-! ### The parser decides the grammar -/

section Grammar

variable {name h p host port : Text}

lemma Parses.splitHostPort (hparses : Parses name h p) (host port : Text) :
    splitHostPort name host port = some ⟨true, h, p⟩ := by
  cases hparses with
  | bare hname hcount => exact splitHostPort_bare hname hcount
  | pair hname hh hp => exact splitHostPort_pair hname hh hp
  | bracketed hc hb => simp [splitHostPort_matched hb, hc]
  | bracketedPort hc hb => simp [splitHostPort_matched hb, hc]

lemma Unbracketed.parses (hname : Unbracketed name) : ∃ h p, Parses name h p := by
  by_cases hcount : name.count ':' = 1
  · obtain hnone | ⟨l, r, rfl, hl⟩ := Text.exists_first name ':'
    · rw [List.count_eq_zero_of_not_mem hnone] at hcount
      contradiction
    · have hr : ':' ∉ r := by
        simpa [List.count_append, List.count_eq_zero_of_not_mem hl, List.count_eq_zero]
          using hcount
      exact ⟨l, r, .pair hname hl hr⟩
  · exact ⟨name, [], .bare hname hcount⟩

/-- A refused name leaves the host as it was or empties it. -/
lemma parses_or_refused (name host port : Text) :
    (∃ h p, Parses name h p) ∨
      ∃ h p, splitHostPort name host port = some ⟨false, h, p⟩ ∧ (h = host ∨ h = []) := by
  by_cases hname : Unbracketed name
  · exact Or.inl hname.parses
  · obtain ⟨t, rfl⟩ : ∃ t, name = '[' :: t := by
      cases name with
      | nil => exact absurd (by simp [Unbracketed]) hname
      | cons c t => exact ⟨t, by simpa [Unbracketed] using hname⟩
    obtain hnone | ⟨h, rest, rfl, hb⟩ := Text.exists_first t ']'
    · exact Or.inr ⟨host, port, splitHostPort_unmatched hnone, Or.inl rfl⟩
    · by_cases hc : ':' ∈ h
      · -- the host is good: what follows the bracket decides
        rcases rest with _ | ⟨c, p⟩
        · exact Or.inl ⟨h, [], .bracketed hc hb⟩
        · by_cases hcolon : c = ':'
          · subst hcolon
            exact Or.inl ⟨h, p, .bracketedPort hc hb⟩
          · exact Or.inr ⟨host, port, by simp [splitHostPort_matched hb, hcolon], Or.inl rfl⟩
      · rcases rest with _ | ⟨c, p⟩
        · exact Or.inr ⟨[], [], by simp [splitHostPort_matched hb, hc], Or.inr rfl⟩
        · by_cases hcolon : c = ':'
          · exact Or.inr ⟨[], p, by simp [splitHostPort_matched hb, hc, hcolon], Or.inr rfl⟩
          · exact Or.inr ⟨host, port, by simp [splitHostPort_matched hb, hcolon], Or.inl rfl⟩

/-- The names of the grammar, without their parts. -/
lemma exists_parses_iff :
    (∃ h p, Parses name h p) ↔ Unbracketed name ∨
      ∃ h, ':' ∈ h ∧ ']' ∉ h ∧
        (name = '[' :: (h ++ [']']) ∨ ∃ p, name = '[' :: (h ++ ']' :: ':' :: p)) := by
  constructor
  · rintro ⟨h, p, hparses⟩
    cases hparses with
    | bare hname _ => exact Or.inl hname
    | pair hname _ _ => exact Or.inl hname
    | bracketed hc hb => exact Or.inr ⟨h, hc, hb, Or.inl rfl⟩
    | bracketedPort hc hb => exact Or.inr ⟨h, hc, hb, Or.inr ⟨p, rfl⟩⟩
  · rintro (hname | ⟨h, hc, hb, rfl | ⟨p, rfl⟩⟩)
    · exact hname.parses
    · exact ⟨h, [], .bracketed hc hb⟩
    · exact ⟨h, p, .bracketedPort hc hb⟩

end Grammar

/-- `connx_split_host_port` accepts exactly the grammar, returns the parts the grammar gives, and
on a refused name makes the resolver fail before it looks anything up. -/
theorem splitHostPort_grammar (name : Text) :
    ∃ r, splitHostPort name [] [] = some r ∧
      (r.ok = true ↔ Unbracketed name ∨
        ∃ h, ':' ∈ h ∧ ']' ∉ h ∧
          (name = '[' :: (h ++ [']']) ∨ ∃ p, name = '[' :: (h ++ ']' :: ':' :: p))) ∧
      (∀ h p, Parses name h p ↔ r = ⟨true, h, p⟩) ∧
      (r.ok = false → r.host = [] ∧ ∀ env defaultPort addresses,
        blockingResolveAddress env name defaultPort addresses =
          some { err := makeStatus env.mallocMessage (-1)
                   ("unparseable host:port (".toList ++ name ++ [')'])
                 addresses := addresses
                 lookups := [] }) := by
  obtain ⟨h, p, hparses⟩ | ⟨h, p, hsplit, hhost⟩ := parses_or_refused name [] []
  · have hsplit := hparses.splitHostPort [] []
    refine ⟨_, hsplit, ?_, fun h' p' => ⟨fun hparses' => ?_, ?_⟩, by simp⟩
    · simpa using exists_parses_iff.mp ⟨h, p, hparses⟩
    · simpa [hsplit] using hparses'.splitHostPort [] []
    · rintro ⟨⟩
      exact hparses
  · obtain rfl : h = [] := by simpa using hhost
    have hnot : ∀ h' p', ¬Parses name h' p' := fun h' p' hparses => by
      simpa [hsplit] using hparses.splitHostPort [] []
    refine ⟨_, hsplit, ?_, fun h' p' => by simpa using hnot h' p', fun _ => ⟨rfl, ?_⟩⟩
    · rw [← exists_parses_iff]
      simpa using hnot
    · intro env defaultPort addresses
      simp only [blockingResolveAddress, hsplit, Option.bind_eq_bind, Option.bind_some,
        resolveSplit, List.isEmpty_nil, if_true]

/-! ### Splitting undoes joining -/

section Join

variable {h : Text} {p : Nat}

lemma colon_notMem_toDigits (p : Nat) : ':' ∉ Nat.toDigits 10 p := fun hmem =>
  absurd (Nat.isDigit_of_mem_toDigits (by decide) (by decide) hmem) (by decide)

lemma formatInt_natCast (p : Nat) : formatInt p = Nat.toDigits 10 p := by
  simp [formatInt]

lemma Unbracketed.append (hu : Unbracketed h) (hne : h ≠ []) (rest : Text) :
    Unbracketed (h ++ rest) := by
  cases h with
  | nil => exact absurd rfl hne
  | cons c t => simpa [Unbracketed] using hu

/-- The text two arguments are joined to. -/
def joined (h : Text) (p : Nat) : Text :=
  if ':' ∈ h then '[' :: (h ++ ']' :: ':' :: Nat.toDigits 10 p) else h ++ ':' :: Nat.toDigits 10 p

lemma joinHostPort_eq (hu : Unbracketed h) (malloc : Bool) :
    joinHostPort malloc h p = format malloc (joined h p) := by
  by_cases hc : ':' ∈ h
  · have hcond : h.getD 0 '\x00' ≠ '[' ∧ ':' ∈ h := ⟨hu.getD_ne, hc⟩
    rw [joinHostPort, if_pos hcond, joined, if_pos hc, formatInt_natCast]
    simp
  · rw [joinHostPort, if_neg (fun hcond => hc hcond.2), joined, if_neg hc, formatInt_natCast]

lemma joinHostPort_bracketed (hc : ':' ∈ h) (malloc : Bool) :
    joinHostPort malloc ('[' :: (h ++ [']'])) p = format malloc (joined h p) := by
  rw [joinHostPort, if_neg (fun hcond => hcond.1 rfl), joined, if_pos hc, formatInt_natCast]
  simp

lemma parses_joined (hne : h ≠ []) (hb : ']' ∉ h) (hu : Unbracketed h) :
    Parses (joined h p) h (Nat.toDigits 10 p) := by
  rw [joined]
  split_ifs with hc
  · exact .bracketedPort hc hb
  · exact .pair (hu.append hne _) hc (colon_notMem_toDigits p)

lemma format_snd (malloc : Bool) (text : Text) :
    (format malloc text).2 = if text.length ≤ intMax ∧ malloc then some text else none := by
  unfold format
  split_ifs with hlong hmalloc hcond hcond hcond <;> first | rfl | (exfalso; omega) | simp_all

end Join

/-- What the joined address splits into, in both spellings of the host. Joining gives no address
only if the memory for it is missing or it is longer than `vsnprintf` can report. -/
theorem splitHostPort_joinHostPort (h : Text) (p : Nat) (hne : h ≠ []) (hb : ']' ∉ h)
    (hu : Unbracketed h) (hp : 1 ≤ p ∧ p ≤ 65535) :
    ∃ text, splitHostPort text [] [] = some ⟨true, h, Nat.toDigits 10 p⟩ ∧
      ∀ malloc, (joinHostPort malloc h p).2 =
          (if text.length ≤ intMax ∧ malloc then some text else none) ∧
        connectAddress malloc (some h) p = (joinHostPort malloc h p).2 ∧
        (':' ∈ h → joinHostPort malloc ('[' :: (h ++ [']'])) p = joinHostPort malloc h p ∧
          connectAddress malloc (some ('[' :: (h ++ [']']))) p =
            connectAddress malloc (some h) p) := by
  have hport : ¬((p : Int) ≤ 0 ∨ 65535 < (p : Int)) := by omega
  refine ⟨joined h p, (parses_joined hne hb hu).splitHostPort [] [], fun malloc => ⟨?_, ?_, ?_⟩⟩
  · rw [joinHostPort_eq hu, format_snd]
  · exact if_neg hport
  · intro hc
    have hjoin : joinHostPort malloc ('[' :: (h ++ [']'])) p = joinHostPort malloc h p := by
      rw [joinHostPort_bracketed hc, joinHostPort_eq hu]
    refine ⟨hjoin, ?_⟩
    simp only [connectAddress, if_neg hport, hjoin]

/-- The loopback address of IPv6, plain and bracketed. -/
theorem splitHostPort_joinHostPort_loopback :
    ∃ text, splitHostPort text [] [] = some ⟨true, "::1".toList, "443".toList⟩ ∧
      (joinHostPort true "[::1]".toList 443).2 = some text := by
  obtain ⟨text, hsplit, hjoin⟩ := splitHostPort_joinHostPort "::1".toList 443
    (by decide) (by decide) (by decide) (by decide)
  obtain ⟨hout, -, hboth⟩ := hjoin true
  refine ⟨text, hsplit, ?_⟩
  have hsame : joinHostPort true "[::1]".toList 443 = joinHostPort true "::1".toList 443 :=
    (hboth (by decide)).1
  rw [hsame]
  have hsome : (joinHostPort true "::1".toList 443).2 = some "[::1]:443".toList := by decide
  rw [show ((443 : Nat) : Int) = 443 from rfl, hsome] at hout
  rw [hsome]
  split_ifs at hout
  exact hout

end Connx.Resolve
