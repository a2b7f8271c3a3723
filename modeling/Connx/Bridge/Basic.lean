import Connx.Lib.Run
import Connx.Utils.SliceBuffer

/-!
# The C API

The objects behind the handles of `c.h`: codec wrappers, options and clients, with the codecs and
address strings they point to. A codec remembers how often it was deleted and a string how often it
was freed, so that a pointer to a deleted one can be told from a good one.

A `ClientConnection` lives as long as there are references to it: the one of its `ClientImpl`, and
those of the tasks and drains that worker threads run for it. The last `LibraryShutdown` joins the
workers, except the one it is called on.
-/

namespace Connx.Bridge

/-- The bytes of a C string. -/
abbrev Text := List Byte

/-- A string made by `connx_strdup`. -/
structure Cell where
  text : Text
  frees : Nat := 0
  deriving DecidableEq, Repr

/-- `connx_codec_s`. -/
structure Wrapper where
  codec : Option Nat
  deriving DecidableEq, Repr

/-- `connx_client_options_s`; the other fields of `ClientOptions` point to nothing. -/
structure Options where
  codec : Option Nat := none
  localAddressCopy : Option Nat := none
  localAddress : Option Nat := none
  deriving DecidableEq, Repr

/-- The options of a `ClientConnection`, and the local address that was asked for. -/
structure Connection where
  codec : Option Nat
  localAddress : Option Nat
  asked : Option Text
  deriving DecidableEq, Repr

/-- A client handle: in use, inside `connx_client_destroy` (called by a worker or from outside), or
destroyed. -/
inductive Phase where
  | alive
  | closing (caller : Option Nat)
  | gone
  deriving DecidableEq, Repr

/-- A `ClientImpl`: the codec of its own options, whether `connection_` is set, and the connection
object until it is deleted, with the number of `ConnectResolved` tasks posted to it. -/
structure Client where
  codec : Option Nat
  holds : Bool := false
  connection : Option Connection := none
  phase : Phase := .alive
  connects : Nat := 0
  deriving DecidableEq, Repr

/-- One execution of `PlatformOpenSocket`: the address the connection was asked to use and what was
read, `none` if the string had been freed. -/
structure Opened where
  asked : Option Text
  read : Option (Option Text)
  deriving DecidableEq, Repr

/-- Objects that were deleted leave `none` behind. `count` is `g_initializations`; `refs` are the
references of worker threads to connections, `detached` the workers that stopped the runtime
themselves and were not joined, `opened` the sockets that were opened, the last one first. -/
structure State where
  codecs : List Nat := []
  strings : List Cell := []
  wrappers : List (Option Wrapper) := []
  options : List (Option Options) := []
  clients : List Client := []
  count : Nat := 0
  refs : List (Nat × Nat) := []
  detached : List Nat := []
  opened : List Opened := []

section code

variable (S : State)

def State.wrapper (w : Nat) : Option Wrapper := S.wrappers[w]?.join

def State.optionsAt (o : Nat) : Option Options := S.options[o]?.join

/-- `delete codec`. -/
def State.delete : Option Nat → State
  | none => S
  | some k => { S with codecs := S.codecs.modify k (· + 1) }

/-- `free(local_address_copy)`. -/
def State.free : Option Nat → State
  | none => S
  | some p =>
    { S with strings := S.strings.modify p fun cell => { cell with frees := cell.frees + 1 } }

/-! ### Codecs and options -/

/-- `connx_codec_new_delimiter` and the others; without a callback there is no codec. -/
def State.codecNew (valid : Bool) : State :=
  if valid then
    { S with
      codecs := S.codecs ++ [0]
      wrappers := S.wrappers ++ [some { codec := some S.codecs.length }] }
  else S

def State.codecDestroy (w : Nat) : Option State :=
  (S.wrapper w).map fun W => { S.delete W.codec with wrappers := S.wrappers.set w none }

def State.optionsNew : State := { S with options := S.options ++ [some {}] }

def State.optionsDestroy (o : Nat) : Option State :=
  (S.optionsAt o).map fun O =>
    { (S.free O.localAddressCopy).delete O.codec with options := S.options.set o none }

def State.setCodec (o w : Nat) : Option State :=
  (S.optionsAt o).bind fun O => (S.wrapper w).map fun W =>
    { S.delete O.codec with
      options := S.options.set o (some { O with codec := W.codec })
      wrappers := S.wrappers.set w (some { W with codec := none }) }

def State.setLocalAddress (o : Nat) (localAddress : Option Text) : Option State :=
  (S.optionsAt o).map fun O =>
    match localAddress with
    | some text =>
      let copy := S.strings.length
      { S.free O.localAddressCopy with
        strings := (S.free O.localAddressCopy).strings ++ [{ text := text }]
        options := S.options.set o
          (some { O with localAddressCopy := some copy, localAddress := some copy }) }
    | none =>
      { S.free O.localAddressCopy with
        options := S.options.set o
          (some { O with localAddressCopy := none, localAddress := none }) }

/-! ### Clients -/

/-- What `opts.local_address` points to. -/
def State.textAt (p : Option Nat) : Option Text := p.bind fun p => S.strings[p]?.map Cell.text

/-- `SetOptions` and `Start`: the connection is made with a copy of the options. -/
def State.start (O : Options) : Client :=
  let impl : Client := { codec := O.codec }
  { impl with
    codec := none
    holds := true
    connection := some
      { codec := impl.codec, localAddress := O.localAddress, asked := S.textAt O.localAddress } }

/-- `connx_client_new`: without a handler, without a codec or when `LibraryInit` fails nothing
happens. -/
def State.clientNew (handler : Bool) (o : Nat) (init : Bool) : Option State :=
  (S.optionsAt o).map fun O =>
    if !handler || O.codec = none || !init then S
    else
      { S with
        clients := S.clients ++ [S.start O]
        options := S.options.set o (some { O with codec := none })
        count := S.count + 1 }

def State.isReferenced (c : Nat) : Bool :=
  S.clients[c]?.any Client.holds || S.refs.any fun r => r.2 = c

/-- A reference was dropped: `~ClientConnection` runs when it was the last one. -/
def State.unref (c : Nat) : State :=
  if S.isReferenced c then S
  else
    { S.delete (S.clients[c]?.bind fun C => C.connection.bind Connection.codec) with
      clients := S.clients.modify c ({ · with connection := none }) }

/-- `connx_client_destroy` up to `LibraryShutdown`: `Stop` resets `connection_`. -/
def State.clientDestroy (caller : Option Nat) (c : Nat) : Option State :=
  if S.clients[c]?.any (·.phase = .alive) &&
      caller.all (fun w => S.refs.any fun r => r.1 = w) then
    some (State.unref { S with
      clients := S.clients.modify c ({ · with holds := false, phase := .closing caller }) } c)
  else none

/-- The rest of it. The last one returns when the workers have ended. -/
def State.shutdown (c : Nat) : Option State :=
  S.clients[c]?.bind fun C =>
    match C.phase with
    | .closing caller =>
      if S.count = 1 then
        if S.refs.all fun r => caller = some r.1 || r.1 ∈ S.detached then
          some { S with
            clients := S.clients.set c { C with phase := .gone }
            count := 0
            detached := caller.toList ++ S.detached }
        else none
      else some { S with
        clients := S.clients.set c { C with phase := .gone }
        count := S.count - 1 }
    | _ => none

/-! ### Workers -/

/-- A worker begins a drain or a task of a connection. Without a runtime only those that were not
joined are left. -/
def State.take (w c : Nat) : Option State :=
  if S.clients[c]?.any (·.connection.isSome) && (S.count ≠ 0 || S.refs.any fun r => r.1 = w) then
    some { S with refs := (w, c) :: S.refs }
  else none

def State.drop (w c : Nat) : Option State :=
  if (w, c) ∈ S.refs then some (State.unref { S with refs := S.refs.erase (w, c) } c) else none

/-- What `PlatformOpenSocket` reads; `none` if the string has been freed. -/
def State.readLocalAddress (N : Connection) : Option (Option Text) :=
  match N.localAddress with
  | none => some none
  | some p => S.strings[p]?.bind fun cell => if cell.frees = 0 then some (some cell.text) else none

/-- `connx_client_connect`. A call that is accepted, because the connection is idle and the hosts
resolve, posts a `ConnectResolved`. -/
def State.connect (c : Nat) (accepted : Bool) : Option State :=
  if S.clients[c]?.any (·.phase = .alive) then
    some { S with clients := S.clients.modify c fun C =>
      { C with connects := if accepted then C.connects + 1 else C.connects } }
  else none

/-- A worker that runs the tasks of a connection runs a `ConnectResolved`, which opens a socket. -/
def State.connectResolved (w c : Nat) : Option State :=
  S.clients[c]?.bind fun C => C.connection.bind fun N =>
    if (w, c) ∈ S.refs ∧ 0 < C.connects then
      some { S with
        clients := S.clients.modify c fun C => { C with connects := C.connects - 1 }
        opened := { asked := N.asked, read := S.readLocalAddress N } :: S.opened }
    else none

/-! ### Runs -/

/-- Calls with the handles they are given, `none` being a null pointer, and what the workers do. -/
inductive Label where
  | codecNew (valid : Bool)
  | codecDestroy (w : Option Nat)
  | optionsNew
  | optionsDestroy (o : Option Nat)
  | setCodec (o w : Option Nat)
  | setLocalAddress (o : Option Nat) (localAddress : Option Text)
  | clientNew (handler : Bool) (o : Option Nat) (init : Bool)
  | clientDestroy (caller : Option Nat) (c : Option Nat)
  | shutdown (c : Nat)
  | connect (c : Option Nat) (accepted : Bool)
  | take (w c : Nat)
  | drop (w c : Nat)
  | connectResolved (w c : Nat)
  deriving DecidableEq, Repr

def State.step : Label → Option State
  | .codecNew valid => some (S.codecNew valid)
  | .codecDestroy (some w) => S.codecDestroy w
  | .optionsNew => some S.optionsNew
  | .optionsDestroy (some o) => S.optionsDestroy o
  | .setCodec (some o) (some w) => S.setCodec o w
  | .setLocalAddress (some o) localAddress => S.setLocalAddress o localAddress
  | .clientNew handler (some o) init => S.clientNew handler o init
  | .clientDestroy caller (some c) => S.clientDestroy caller c
  | .shutdown c => S.shutdown c
  | .connect (some c) accepted => S.connect c accepted
  | .take w c => S.take w c
  | .drop w c => S.drop w c
  | .connectResolved w c => S.connectResolved w c
  -- a null pointer is left alone
  | .codecDestroy none | .optionsDestroy none | .setCodec none _ | .setCodec (some _) none
  | .setLocalAddress none _ | .clientNew _ none _ | .clientDestroy _ none | .connect none _ =>
    some S

end code

lemma State.connect_eq_some {S S' : State} {c : Nat} {accepted : Bool}
    (h : S.connect c accepted = some S') :
    S' = { S with clients := S.clients.modify c fun C =>
      { C with connects := if accepted then C.connects + 1 else C.connects } } := by
  obtain ⟨-, h⟩ := Option.ite_none_right_eq_some.mp h
  exact (Option.some.inj h).symm

lemma State.connectResolved_eq_some {S S' : State} {w c : Nat}
    (h : S.connectResolved w c = some S') :
    ∃ C N, S.clients[c]? = some C ∧ C.connection = some N ∧
      S' = { S with
        clients := S.clients.modify c fun C => { C with connects := C.connects - 1 }
        opened := { asked := N.asked, read := S.readLocalAddress N } :: S.opened } := by
  obtain ⟨C, hC, h⟩ := Option.bind_eq_some_iff.mp h
  obtain ⟨N, hN, h⟩ := Option.bind_eq_some_iff.mp h
  obtain ⟨-, h⟩ := Option.ite_none_right_eq_some.mp h
  exact ⟨C, N, hC, hN, (Option.some.inj h).symm⟩

/-- A step, without the calls that get a null pointer: these change nothing. -/
inductive Step (S : State) : Label → State → Prop
  | null (l : Label) : Step S l S
  | codecNew (valid : Bool) : Step S (.codecNew valid) (S.codecNew valid)
  | codecDestroy {w : Nat} {S' : State} (h : S.codecDestroy w = some S') :
      Step S (.codecDestroy (some w)) S'
  | optionsNew : Step S .optionsNew S.optionsNew
  | optionsDestroy {o : Nat} {S' : State} (h : S.optionsDestroy o = some S') :
      Step S (.optionsDestroy (some o)) S'
  | setCodec {o w : Nat} {S' : State} (h : S.setCodec o w = some S') :
      Step S (.setCodec (some o) (some w)) S'
  | setLocalAddress {o : Nat} {localAddress : Option Text} {S' : State}
      (h : S.setLocalAddress o localAddress = some S') :
      Step S (.setLocalAddress (some o) localAddress) S'
  | clientNew {handler init : Bool} {o : Nat} {S' : State}
      (h : S.clientNew handler o init = some S') : Step S (.clientNew handler (some o) init) S'
  | clientDestroy {caller : Option Nat} {c : Nat} {S' : State}
      (h : S.clientDestroy caller c = some S') : Step S (.clientDestroy caller (some c)) S'
  | shutdown {c : Nat} {S' : State} (h : S.shutdown c = some S') : Step S (.shutdown c) S'
  | connect {c : Nat} {accepted : Bool} {S' : State} (h : S.connect c accepted = some S') :
      Step S (.connect (some c) accepted) S'
  | take {w c : Nat} {S' : State} (h : S.take w c = some S') : Step S (.take w c) S'
  | drop {w c : Nat} {S' : State} (h : S.drop w c = some S') : Step S (.drop w c) S'
  | connectResolved {w c : Nat} {S' : State} (h : S.connectResolved w c = some S') :
      Step S (.connectResolved w c) S'

lemma step_of {S S' : State} {l : Label} (h : S.step l = some S') : Step S l S' := by
  have hnull {S₀ : State} (l : Label) (heq : some S = some S₀) : Step S l S₀ :=
    Option.some.inj heq ▸ .null l
  cases l with
  | codecNew valid => exact Option.some.inj h ▸ .codecNew valid
  | codecDestroy w =>
    cases w with
    | none => exact hnull _ h
    | some w => exact .codecDestroy h
  | optionsNew => exact Option.some.inj h ▸ .optionsNew
  | optionsDestroy o =>
    cases o with
    | none => exact hnull _ h
    | some o => exact .optionsDestroy h
  | setCodec o w =>
    cases o with
    | none => exact hnull _ h
    | some o =>
      cases w with
      | none => exact hnull _ h
      | some w => exact .setCodec h
  | setLocalAddress o localAddress =>
    cases o with
    | none => exact hnull _ h
    | some o => exact .setLocalAddress h
  | clientNew handler o init =>
    cases o with
    | none => exact hnull _ h
    | some o => exact .clientNew h
  | clientDestroy caller c =>
    cases c with
    | none => exact hnull _ h
    | some c => exact .clientDestroy h
  | shutdown c => exact .shutdown h
  | connect c accepted =>
    cases c with
    | none => exact hnull _ h
    | some c => exact .connect h
  | take w c => exact .take h
  | drop w c => exact .drop h
  | connectResolved w c => exact .connectResolved h

end Connx.Bridge
