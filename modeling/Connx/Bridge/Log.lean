import Connx.Lib.Run

/-!
# `log.cc`

The log callback with its user data, and the calls that set and use them. Every load and store of
an atomic variable is one step of one call, and the calls advance in any order. A call made from
inside a callback is one more call. Functions and data are named by their addresses, 0 being null.
-/

namespace Connx.Log

/-- The address of `connx_log_default`. -/
def connxLogDefault : Nat := 1

/-- `CONNX_LOG_LEVEL_TRACE`, `_DEBUG` and `_ERROR`. -/
def levelTrace : Int := 0
def levelDebug : Int := 1
def levelError : Int := 4

/-- `g_seq`, `g_log_function`, `g_user_data` and `g_min_level`. -/
structure Globals where
  seq : Int := 0
  logFunction : Nat := connxLogDefault
  userData : Nat := 0
  minLevel : Int := levelDebug
  deriving DecidableEq

/-- A call of `connx_log_set_callback` or `connx_log`, by what it does next; `s` is the value of
`g_seq` it has loaded. -/
inductive Call where
  | loadSeq (callback userData : Nat)
  | storeOdd (callback userData : Nat) (s : Int)
  | storeFunction (callback userData : Nat) (s : Int)
  | storeData (callback userData : Nat) (s : Int)
  | storeEven (callback userData : Nat) (s : Int)
  /-- `connx_log_set_callback` has returned. -/
  | set (callback userData : Nat)
  | loadMinLevel (level : Int)
  | makeMessage
  | loadData
  | loadFunction (userData : Nat)
  | invoke (fn userData : Nat)
  /-- `connx_log` has returned, having invoked a function with its data or none. -/
  | logged (invoked : Option (Nat × Nat))
  deriving DecidableEq

/-- The next step of a call; `made` says whether the message could be printed and allocated. -/
def Call.advance (g : Globals) (made : Bool) : Call → Option (Globals × Call)
  | .loadSeq f u => some (g, .storeOdd f u g.seq)
  | .storeOdd f u s => some ({ g with seq := s + 1 }, .storeFunction f u s)
  | .storeFunction f u s => some ({ g with logFunction := f }, .storeData f u s)
  | .storeData f u s => some ({ g with userData := u }, .storeEven f u s)
  | .storeEven f u s => some ({ g with seq := s + 2 }, .set f u)
  | .loadMinLevel level => some (g, if level < g.minLevel then .logged none else .makeMessage)
  | .makeMessage => some (g, if made then .loadData else .logged none)
  -- the two loads of `connx_log`; `g_seq` is not looked at
  | .loadData => some (g, .loadFunction g.userData)
  | .loadFunction u =>
    some (g, if g.logFunction = 0 then .logged none else .invoke g.logFunction u)
  | .invoke f u => some (g, .logged (some (f, u)))
  | .set _ _ | .logged _ => none

/-- The globals and all calls made so far, in the order in which they began. -/
structure State where
  globals : Globals := {}
  calls : List Call := []
  deriving DecidableEq

inductive Label where
  | setCallback (callback userData : Nat)
  | log (level : Int)
  | setMinLevel (level : Int)
  /-- The `i`-th call takes its next step. -/
  | advance (i : Nat) (made : Bool)
  deriving DecidableEq

/-- `connx_log_set_min_level`: the level is clamped and stored. -/
def clampLevel (level : Int) : Int :=
  if level < levelTrace then levelTrace else if levelError < level then levelError else level

/-- `connx_log` up to its first load. -/
def beginLog (level : Int) : Call :=
  if level < levelTrace ∨ levelError < level then .logged none else .loadMinLevel level

def step (S : State) : Label → Option State
  | .setCallback callback userData =>
    some { S with calls := S.calls ++ [.loadSeq callback userData] }
  | .log level => some { S with calls := S.calls ++ [beginLog level] }
  | .setMinLevel level => some { S with globals.minLevel := clampLevel level }
  | .advance i made => do
    let call ← S.calls[i]?
    let (globals, call) ← call.advance S.globals made
    some { globals, calls := S.calls.set i call }

end Connx.Log
