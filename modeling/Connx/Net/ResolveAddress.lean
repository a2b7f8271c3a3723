import Connx.Utils.SliceBuffer
import Connx.Lib.Text

/-!
# `resolve_address.cc`

Joining and splitting a host and a port, and the blocking resolver that uses the split. Strings
are lists of characters; a C string has no `NUL` inside, and reading a string at its end gives
`NUL`. What the C library answers (`malloc`, `getaddrinfo`) is a parameter.
-/

namespace Connx.Resolve

abbrev Text := List Char

/-! ### Formatting -/

/-- `INT_MAX`, the longest output `vsnprintf` can report. -/
def intMax : Nat := 2 ^ 31 - 1

/-- `%d`. -/
def formatInt (n : Int) : Text :=
  if n < 0 then '-' :: Nat.toDigits 10 n.natAbs else Nat.toDigits 10 n.natAbs

/-- `connx_format` for a format and arguments that give `text`: the return value and `*strp`.
Whether the text fits `buf` or is printed a second time into the new block, the block holds it. -/
def format (malloc : Bool) (text : Text) : Int × Option Text :=
  if intMax < text.length then (-1, none)
  else if malloc then (text.length, some text)
  else (-1, none)

/-- `class Status`. -/
structure Status where
  errCode : Int
  desc : Text
  deriving DecidableEq

/-- `MakeStatusFromFormat`, and `connx_getaddrinfo_error` with its own code: no status at all, which
is `CONNX_ERROR_NONE`, when the text could not be made. -/
def makeStatus (malloc : Bool) (code : Int) (text : Text) : Option Status :=
  match format malloc text with
  | (_, none) => none
  | (n, some message) => some ⟨code, if 0 < n then message else []⟩

/-! ### Join and split -/

/-- `connx_join_host_port`: the return value and `*out`. -/
def joinHostPort (malloc : Bool) (host : Text) (port : Int) : Int × Option Text :=
  if host.getD 0 '\x00' ≠ '[' ∧ ':' ∈ host then
    format malloc ('[' :: host ++ "]:".toList ++ formatInt port)
  else format malloc (host ++ ':' :: formatInt port)

/-- `ClientAdaptor::Connect(ip, port)`: the address handed to `ClientImpl::Connect`, if it comes to
that. -/
def connectAddress (malloc : Bool) (ip : Option Text) (port : Int) : Option Text :=
  match ip with
  | none => none
  | some ip => if port ≤ 0 ∨ 65535 < port then none else (joinHostPort malloc ip port).2

/-- The returned flag of `connx_split_host_port` with `*host` and `*port` as it leaves them. -/
structure Split where
  ok : Bool
  host : Text
  port : Text
  deriving DecidableEq

/-- The bracketed branch behind `*port`: the host is written, then checked. -/
def splitBracketedHost (name : Text) (rbracket : Nat) (port : Text) : Option Split := do
  let host ← Text.substr name 1 (rbracket - 1)
  if Text.find host ':' 0 = none then some ⟨false, [], port⟩ else some ⟨true, host, port⟩

/-- `connx_split_host_port`; `host` and `port` are the strings as the caller passes them, and `none`
stands for the exception of `substr`. -/
def splitHostPort (name host port : Text) : Option Split :=
  if name.getD 0 '\x00' = '[' then
    match Text.find name ']' 1 with
    | none => some ⟨false, host, port⟩
    | some rbracket =>
      if rbracket = name.length - 1 then splitBracketedHost name rbracket []
      else if name.getD (rbracket + 1) '\x00' = ':' then do
        let port ← Text.substr name (rbracket + 2) (name.length - rbracket - 2)
        splitBracketedHost name rbracket port
      else some ⟨false, host, port⟩
  else
    match Text.find name ':' 0 with
    | none => some ⟨true, name, []⟩
    | some colon =>
      if Text.find name ':' (colon + 1) = none then do
        let host ← Text.substr name 0 colon
        let port ← Text.substr name (colon + 1) (name.length - colon - 1)
        some ⟨true, host, port⟩
      else some ⟨true, name, []⟩

/-! ### The resolver -/

/-- `connx_resolved_address`: the bytes of `addr` in use. -/
abbrev ResolvedAddress := List Byte

/-- The outside of one call. `getaddrinfo` answers the last of the lookups made so far with its
return code and, when that is 0, the list of addresses. -/
structure Host where
  getaddrinfo : List (Text × Text) → Int × List ResolvedAddress
  gaiStrerror : Int → Text
  mallocMessage : Bool
  mallocAddresses : Bool
  mallocArray : Bool

/-- The error returned, `*addresses` and the lookups made. -/
structure Resolution where
  err : Option Status
  addresses : Option (List ResolvedAddress)
  lookups : List (Text × Text) := []

/-- `svc`: the service names for which the lookup is repeated. -/
def services : List (Text × Text) :=
  [("http".toList, "80".toList), ("https".toList, "443".toList)]

/-- `getaddrinfo` with the retry: the last answer and the lookups made. -/
def lookup (env : Host) (host port : Text) : (Int × List ResolvedAddress) × List (Text × Text) :=
  let first := [(host, port)]
  let answer := env.getaddrinfo first
  if answer.1 = 0 then (answer, first)
  else
    match services.find? (fun svc => port = svc.1) with
    | none => (answer, first)
    | some svc => (env.getaddrinfo (first ++ [(host, svc.2)]), first ++ [(host, svc.2)])

/-- The part of the resolver behind the split. -/
def resolveSplit (env : Host) (name : Text) (defaultPort : Option Text)
    (addresses : Option (List ResolvedAddress)) (host port : Text) : Resolution :=
  if host.isEmpty then
    { err := makeStatus env.mallocMessage (-1) ("unparseable host:port (".toList ++ name ++ [')'])
      addresses }
  else
    match if port.isEmpty then defaultPort else some port with
    | none =>
      { err := makeStatus env.mallocMessage (-1) ("no port in name (".toList ++ name ++ [')'])
        addresses }
    | some port =>
      let ((s, result), lookups) := lookup env host port
      if s ≠ 0 then
        { err := makeStatus env.mallocMessage s
            ("'getaddrinfo'-[".toList ++ env.gaiStrerror s ++ [']'])
          addresses, lookups }
      else if ¬env.mallocAddresses then
        { err := makeStatus env.mallocMessage (-1) "malloc failed for resolved_addresses".toList
          addresses := none, lookups }
      else if ¬env.mallocArray then
        { err := makeStatus env.mallocMessage (-1) "malloc failed for resolved_address array".toList
          addresses := none, lookups }
      else { err := none, addresses := some result, lookups }

/-- `connx_blocking_resolve_address`; the flag of the split is not looked at. -/
def blockingResolveAddress (env : Host) (name : Text) (defaultPort : Option Text)
    (addresses : Option (List ResolvedAddress)) : Option Resolution := do
  let split ← splitHostPort name [] []
  some (resolveSplit env name defaultPort addresses split.host split.port)

/-! ### What the parser does with each kind of name -/

section Split

variable {h p host port : Text}

lemma splitBracketedHost_eq (h rest port : Text) :
    splitBracketedHost ('[' :: (h ++ rest)) (1 + h.length) port =
      some (if ':' ∈ h then ⟨true, h, port⟩ else ⟨false, [], port⟩) := by
  have hhost : Text.substr ('[' :: (h ++ rest)) 1 (1 + h.length - 1) = some h := by
    rw [Nat.add_sub_cancel_left]
    exact Text.substr_append ['['] h rest
  simp only [splitBracketedHost, hhost, Option.bind_eq_bind, Option.bind_some]
  by_cases hc : ':' ∈ h
  · rw [if_pos hc, if_neg (by simpa [Text.find_eq_none_iff] using hc)]
  · rw [if_neg hc, if_pos (by simpa [Text.find_eq_none_iff] using hc)]

lemma splitHostPort_unmatched {t : Text} (hb : ']' ∉ t) :
    splitHostPort ('[' :: t) host port = some ⟨false, host, port⟩ := by
  have hnone : Text.find ('[' :: t) ']' 1 = none := by
    simpa [Text.find_eq_none_iff] using hb
  simp only [splitHostPort, List.getD_cons_zero, if_true, hnone]

/-- With a closing bracket the character behind it decides. -/
lemma splitHostPort_matched (hb : ']' ∉ h) (rest : Text) :
    splitHostPort ('[' :: (h ++ ']' :: rest)) host port =
      match rest with
      | [] => some (if ':' ∈ h then ⟨true, h, []⟩ else ⟨false, [], []⟩)
      | c :: p =>
        if c = ':' then some (if ':' ∈ h then ⟨true, h, p⟩ else ⟨false, [], p⟩)
        else some ⟨false, host, port⟩ := by
  have hfind : Text.find ('[' :: (h ++ ']' :: rest)) ']' 1 = some (1 + h.length) :=
    Text.find_append_cons ['['] hb
  simp only [splitHostPort, List.getD_cons_zero, if_true, hfind]
  cases rest with
  | nil => rw [if_pos (by simp; omega), splitBracketedHost_eq]
  | cons c p =>
    have hc : ('[' :: (h ++ ']' :: c :: p)).getD (1 + h.length + 1) '\x00' = c := by
      simp [Nat.add_comm 1]
    have hport : Text.substr ('[' :: (h ++ ']' :: c :: p)) (1 + h.length + 2)
        (('[' :: (h ++ ']' :: c :: p)).length - (1 + h.length) - 2) = some p := by
      have hlen : ('[' :: (h ++ [']', c])).length = 1 + h.length + 2 := by simp; omega
      have hrest : ('[' :: (h ++ ']' :: c :: p)).length - (1 + h.length) - 2 = p.length := by
        simp; omega
      rw [hrest, ← hlen]
      simpa using Text.substr_append_right ('[' :: (h ++ [']', c])) p
    rw [if_neg (by simp; omega), hc, hport]
    simp only [Option.bind_eq_bind, Option.bind_some, splitBracketedHost_eq]

/-- The text does not start with an opening bracket. -/
def Unbracketed (name : Text) : Prop := name.head? ≠ some '['

instance (name : Text) : Decidable (Unbracketed name) := inferInstanceAs (Decidable (_ ≠ _))

lemma Unbracketed.getD_ne {name : Text} (hname : Unbracketed name) :
    name.getD 0 '\x00' ≠ '[' := by
  cases name with
  | nil => decide
  | cons c t => exact fun hc => hname (by simpa using hc)

lemma splitHostPort_pair (hname : Unbracketed (h ++ ':' :: p)) (hh : ':' ∉ h) (hp : ':' ∉ p) :
    splitHostPort (h ++ ':' :: p) host port = some ⟨true, h, p⟩ := by
  have hfind : Text.find (h ++ ':' :: p) ':' 0 = some h.length := by
    simpa using Text.find_append_cons (r := p) [] hh
  have hlast : Text.find (h ++ ':' :: p) ':' (h.length + 1) = none := by
    simpa [Text.find_eq_none_iff] using hp
  have hhost : Text.substr (h ++ ':' :: p) 0 h.length = some h := Text.substr_append [] h _
  have hport : Text.substr (h ++ ':' :: p) (h.length + 1)
      ((h ++ ':' :: p).length - h.length - 1) = some p := by
    have := Text.substr_append_right (h ++ [':']) p
    simpa using this
  rw [splitHostPort, if_neg hname.getD_ne, hfind]
  simp only
  rw [if_pos hlast, hhost, hport]
  rfl

lemma splitHostPort_bare {name : Text} (hname : Unbracketed name) (hcount : name.count ':' ≠ 1) :
    splitHostPort name host port = some ⟨true, name, []⟩ := by
  rw [splitHostPort, if_neg hname.getD_ne]
  obtain hnone | ⟨l, r, rfl, hl⟩ := Text.exists_first name ':'
  · rw [Text.find_eq_none_iff.mpr (by simpa using hnone)]
  · have hfind : Text.find (l ++ ':' :: r) ':' 0 = some l.length := by
      simpa using Text.find_append_cons (r := r) [] hl
    have hr : ':' ∈ r := by
      by_contra hr
      exact hcount (by simp [List.count_append, List.count_eq_zero_of_not_mem, hl, hr])
    rw [hfind]
    simp only
    rw [if_neg (by simpa [Text.find_eq_none_iff] using hr)]

end Split

end Connx.Resolve
