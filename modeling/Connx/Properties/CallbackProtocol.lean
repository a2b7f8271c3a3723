import Connx.Codec.Splitting
import Connx.Net.Refinement

/-!
# The callback protocol of a connection

What the handler sees is a sequence of episodes: an attempt that fails, or a connection with its
messages and the callback that ends it. A connection that `Disconnect` or its owner ends is not
reported, so the silent closes are observed together with the callbacks.

The protocol holds in every run in which no attempt fails on an established connection.
`ConnectResolved` and the task of a failed resolution do not look at the state they find, so an
attempt that was cancelled by `Disconnect` can fail inside the episode of the next one.
-/

namespace Connx

open Relation

/-! ### Episodes -/

/-- What can be observed of a connection: a callback, or a close that calls nothing. -/
inductive Observation where
  | callback (cb : Callback)
  | silentClose
  deriving DecidableEq, Repr

def Event.observe : Event → Option Observation
  | .call cb => some (.callback cb)
  | .closing reason _ => if closeNotifies reason then none else some .silentClose
  | _ => none

def observations (trace : List Event) : List Observation := trace.filterMap Event.observe

/-- The callbacks of a connection that has delivered `ms`. -/
def openEpisode (ms : List (List Byte)) : List Observation :=
  .callback .onConnected :: ms.map fun m => .callback (.onMessage m)

inductive Episode where
  | failed (reason : ErrorText)
  | closed (ms : List (List Byte))
  | ended (ms : List (List Byte))
  | abandoned

def Episode.observations : Episode → List Observation
  | .failed reason => [.callback (.onConnectFailed reason)]
  | .closed ms => openEpisode ms ++ [.callback .onClosed]
  | .ended ms => openEpisode ms ++ [.silentClose]
  | .abandoned => [.silentClose]

/-- The observations are episodes, the last of which may still be open. -/
def InEpisodes (os : List Observation) (current : Option (List (List Byte))) : Prop :=
  ∃ episodes : List Episode,
    os = episodes.flatMap Episode.observations ++ (current.map openEpisode).getD []

section episodes

variable {os : List Observation} {ms : List (List Byte)}

lemma InEpisodes.open (h : InEpisodes os none) :
    InEpisodes (os ++ [.callback .onConnected]) (some []) := by
  obtain ⟨es, rfl⟩ := h
  exact ⟨es, by simp [openEpisode]⟩

lemma InEpisodes.message (h : InEpisodes os (some ms)) (m : List Byte) :
    InEpisodes (os ++ [.callback (.onMessage m)]) (some (ms ++ [m])) := by
  obtain ⟨es, rfl⟩ := h
  exact ⟨es, by simp [openEpisode]⟩

/-- An episode that is complete. -/
lemma InEpisodes.add (h : InEpisodes os none) (e : Episode) :
    InEpisodes (os ++ e.observations) none := by
  obtain ⟨es, rfl⟩ := h
  exact ⟨es ++ [e], by simp⟩

/-- The end of the open episode. -/
lemma InEpisodes.finish (h : InEpisodes os (some ms)) {e : Episode} {o : Observation}
    (he : e.observations = openEpisode ms ++ [o]) : InEpisodes (os ++ [o]) none := by
  obtain ⟨es, rfl⟩ := h
  exact ⟨es ++ [e], by simp [he]⟩

end episodes

variable {cfg : Config} {F : Facts}

/-- The protocol together with what the state says about the open episode. -/
structure InProtocol (c : Conn) : Prop extends Coherent c where
  episodes : ∃ current, InEpisodes (observations c.trace) current ∧
    (current.isSome = true ↔ c.connected = true)

lemma InProtocol.down {c : Conn} (h : InProtocol c) (hc : c.connected = false) :
    InEpisodes (observations c.trace) none := by
  obtain ⟨current, hep, hcur⟩ := h.episodes
  rw [hc] at hcur
  cases current with
  | none => exact hep
  | some ms => simp at hcur

lemma InProtocol.up {c : Conn} (h : InProtocol c) (hc : c.connected = true) :
    ∃ ms, InEpisodes (observations c.trace) (some ms) := by
  obtain ⟨current, hep, hcur⟩ := h.episodes
  rw [hc] at hcur
  cases current with
  | none => simp at hcur
  | some ms => exact ⟨ms, hep⟩

lemma InProtocol.not_connected {c : Conn} (h : InProtocol c) (hs : c.state = .connecting) :
    c.connected = false := by
  simpa [hs] using mt h.connected.mp

/-- Events that are not observed. -/
lemma InProtocol.same {c c' : Conn} (h : InProtocol c) (hcoh : Coherent c')
    (hobs : observations c'.trace = observations c.trace) (hc : c'.connected = c.connected) :
    InProtocol c' :=
  ⟨hcoh, by rw [hobs, hc]; exact h.episodes⟩

/-- A close that calls nothing ends the open episode, or an attempt. -/
lemma InProtocol.silent {c : Conn} (h : InProtocol c) :
    InEpisodes (observations c.trace ++ [.silentClose]) none := by
  cases hc : c.connected with
  | true =>
    obtain ⟨ms, hep⟩ := h.up hc
    exact hep.finish (e := .ended ms) rfl
  | false => exact (h.down hc).add .abandoned

/-- A close that is reported, on a connection whose state fits the report. -/
lemma InProtocol.reported {s : Local} {reason : CloseReason} {desc : ErrorText}
    (h : InProtocol s.conn) (hcause : Cause cfg F s.conn reason desc) (hF : ¬ F.strayFail)
    (hn : closeNotifies reason = true) :
    InEpisodes (observations s.conn.trace ++ [.callback (closeCallback reason desc)]) none := by
  have hclosed : s.conn.connected = true →
      InEpisodes (observations s.conn.trace ++ [.callback .onClosed]) none := fun hc => by
    obtain ⟨ms, hep⟩ := h.up hc
    exact hep.finish (e := .closed ms) rfl
  cases hcause with
  | user => simp [closeNotifies] at hn
  | attemptFailed hs => exact (h.down (h.not_connected hs)).add (.failed desc)
  | timeout hs => exact (h.down (h.not_connected hs)).add (.failed .connectTimeout)
  | decodeError hc => exact hclosed hc
  | drained hc _ hnet =>
    have hcb : closeCallback reason desc = .onClosed := by
      rcases hnet with ⟨rfl, -⟩ | ⟨rfl, -⟩ <;> rfl
    rw [hcb]
    exact hclosed hc
  | abrupt hc => exact hclosed hc
  | stray _ hstray => exact absurd hstray hF

end Connx
