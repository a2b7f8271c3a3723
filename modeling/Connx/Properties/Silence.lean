import Connx.Codec.Splitting
import Connx.Net.Machine.Runs

/-!
# Silence after the release

A connection on its executor, whose operations are taken one at a time: posts from any threads,
events, the drain with the tasks it runs, and `CloseFromOwner` from any thread or inside a callback.
-/

namespace Connx

open Run

/-- In every run nothing is run and no callback is started once `CloseFromOwner` has returned. -/
theorem silence_of_exec (cfg : Config) (ls : List Machine.Label) {M : Machine}
    (h : exec (Machine.step cfg) {} ls = some M) : Silence M.conn.trace := by
  have hM : M.Inv cfg :=
    exec_invariant (fun _ _ => True) (fun _ _ _ hM _ hstep => hM.step hstep) h
      (meets_of_forall (fun _ _ => trivial) _ _) Machine.inv_init
  exact hM.silence

/-- Steps of the executor. -/
def Machine.Label.execs (ls : List (Executor.Label Task)) : List Machine.Label := ls.map .exec

open Machine.Label in
/-- A connection is established at once, and `OnConnected` releases it. -/
def releaseInOnConnected : List Machine.Label :=
  .connectBegin 0 :: .connectMove 0 :: .exec (.post 0 (.connectResolved 0)) ::
    execs (Executor.Label.steps 0 9) ++ .exec .start :: execs (Executor.Label.steps 1 2) ++
    .start 1 { openSocket := .opened 5, connect := .done } 9 :: .exec (.step 1 .closeFromOwner) ::
    execs (Executor.Label.steps 1 2) ++ .exec (.flush 1) :: .exec (.flush 1) ::
    execs (Executor.Label.steps 1 7) ++ .resume 1 9 :: .finish 1 ::
    execs (Executor.Label.steps 1 3)

theorem silence_releaseInOnConnected :
    ∃ M, exec (Machine.step ((FixedLengthCodec.new 1).clients 0)) {} releaseInOnConnected = some M ∧
      M.conn.trace = [.connectBegan 0, .connectMoved 0, .ran (.connectResolved 0),
        .call .onConnected, .closing .release .empty, .ownerReturned] ∧ Silence M.conn.trace := by
  have hrun : (exec (Machine.step ((FixedLengthCodec.new 1).clients 0)) {} releaseInOnConnected).map
      (·.conn.trace) = some [.connectBegan 0, .connectMoved 0, .ran (.connectResolved 0),
        .call .onConnected, .closing .release .empty, .ownerReturned] := by decide +kernel
  obtain ⟨M, hM, htrace⟩ := Option.map_eq_some_iff.mp hrun
  exact ⟨M, hM, htrace, silence_of_exec _ releaseInOnConnected hM⟩

end Connx
