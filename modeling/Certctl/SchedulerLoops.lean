import Mathlib.Data.Int.Init
import Mathlib.Tactic.Common

/-!
# Runs of the scheduler loops

A loop of the scheduler starts its runs in goroutines of their own. A flag
keeps a tick from starting a run beside another one, and a wait group counts
the loops and the runs. A run is in progress from the start of its goroutine
until it resets the flag. The loops are counted before they begin, and a
loop counts a run while it is counted itself, so the group is at zero only
when no loop is left to start a run.
-/

namespace Certctl.SchedulerLoops

open Function

/-- The loops that are modelled. -/
inductive LoopName where
  | renewalCheck
  | jobProcessor
deriving DecidableEq

/-- What a loop does next. -/
inductive Pc where
  /-- Set the flag for the run at the start. -/
  | begin
  /-- Count the run for which the flag is set. -/
  | add
  /-- Start its goroutine. -/
  | go
  | select
  /-- Leave the group, the context being cancelled. -/
  | leave
  | exited
deriving DecidableEq

/-- A loop, its flag and its runs. -/
structure Loop where
  pc : Pc := .begin
  running : Bool := false
  runs : ℕ := 0
  /-- Runs that have reset the flag and not yet left the group. -/
  ending : ℕ := 0

/-- The steps of a loop and its runs. -/
inductive Move where
  | loop
  /-- A tick is received, which may be after the cancellation. -/
  | tick
  | cancelled
  /-- A run resets the flag. -/
  | reset
  /-- A run leaves the group. -/
  | done

/-- The loop after a step of it or of one of its runs, and what the step adds to the group. -/
def Loop.step (cancelled : Bool) (l : Loop) : Move→Option (Loop×ℤ)
  | .loop => match l.pc with
    | .begin => some ({l with pc := .add, running := true},0)
    | .add => some ({l with pc := .go},1)
    | .go => some ({l with pc := .select, runs := l.runs+1},0)
    | .leave => some ({l with pc := .exited},-1)
    | _ => none
  | .tick => if l.pc≠.select then none
    else if l.running then some (l,0)
    else some ({l with pc := .add, running := true},0)
  | .cancelled => if l.pc=.select ∧ cancelled then some ({l with pc := .leave},0) else none
  | .reset => if 0<l.runs then some ({l with running := false, runs := l.runs-1, ending := l.ending+1},0) else none
  | .done => if 0<l.ending then some ({l with ending := l.ending-1},-1) else none

/-- The loops and their wait group. -/
structure State where
  loops : LoopName→Loop := fun _ => {}
  /-- Other loops and runs that are counted. -/
  others : ℤ
  wg : ℤ
  cancelled : Bool := false
  /-- The wait for completion has found the group at zero. -/
  completed : Bool := false

/-- Runs of the scheduler from the moment at which its loops are counted. The other loops come and go. -/
inductive Reach (others : ℕ) : State→Prop where
  | start : Reach others {others := others, wg := others+2}
  | move {s : State} {l : Loop} {d : ℤ} (n : LoopName) (m : Move) : Reach others s →
      (s.loops n).step s.cancelled m=some (l,d) → Reach others {s with loops := update s.loops n l, wg := s.wg+d}
  | other {s : State} (d : ℤ) : Reach others s → 0 ≤ s.others+d →
      Reach others {s with others := s.others+d, wg := s.wg+d}
  | cancel {s : State} : Reach others s → Reach others {s with cancelled := true}
  | wait {s : State} : Reach others s → s.cancelled=true → s.wg=0 → Reach others {s with completed := true}

/-- What a loop and its runs count for in the group. -/
def Loop.counted (l : Loop) : ℤ := (if l.pc=.exited then 0 else 1)+(if l.pc=.go then 1 else 0)+l.runs+l.ending

/-- The flag is set for the run in progress or about to start. -/
structure Loop.Guarded (l : Loop) : Prop where
  fresh : l.pc=.begin → l.running=false
  starting : l.pc=.add ∨ l.pc=.go → l.running=true
  runs : l.runs=if l.running=true ∧ l.pc≠.add ∧ l.pc≠.go then 1 else 0

/-- A step keeps the flag set for the run in progress or about to start, and adds to the group what the loop then
counts for more. -/
theorem guarded_step {c : Bool} {l l' : Loop} {m : Move} {d : ℤ} (h : l.Guarded) (hstep : l.step c m=some (l',d)) :
    l'.Guarded ∧ l'.counted=l.counted+d := by
  obtain ⟨pc,running,runs,ending⟩ := l
  obtain ⟨hfresh,hstarting,hruns⟩ := h
  cases m with
  | loop =>
    cases pc with
    | begin =>
      obtain rfl : running=false := hfresh rfl
      cases hstep
      exact ⟨⟨by simp,fun _ => rfl,hruns⟩,rfl⟩
    | add =>
      obtain rfl : running=true := hstarting (.inl rfl)
      cases hstep
      refine ⟨⟨by simp,fun _ => rfl,hruns⟩,?_⟩
      simp only [Loop.counted,reduceCtorEq,if_true,if_false]
      omega
    | go =>
      -- The goroutine starts: the run that was counted as about to start is now in progress.
      obtain rfl : running=true := hstarting (.inr rfl)
      cases hstep
      simp only [ne_eq,not_true_eq_false,and_false,if_false] at hruns
      refine ⟨⟨by simp,by simp,by simp [hruns]⟩,?_⟩
      simp only [Loop.counted,reduceCtorEq,if_true,if_false]
      omega
    | select => cases hstep
    | leave =>
      cases hstep
      refine ⟨⟨by simp,by simp,by simpa using hruns⟩,?_⟩
      simp only [Loop.counted,reduceCtorEq,if_true,if_false]
      omega
    | exited => cases hstep
  | tick =>
    cases pc with
    | select =>
      cases running with
      | true =>
        cases hstep
        exact ⟨⟨hfresh,hstarting,hruns⟩,(Int.add_zero _).symm⟩
      | false =>
        cases hstep
        exact ⟨⟨by simp,fun _ => rfl,hruns⟩,rfl⟩
    | _ => cases hstep
  | cancelled =>
    obtain ⟨⟨rfl,-⟩,hnext⟩ := Option.ite_none_right_eq_some.mp hstep
    cases hnext
    exact ⟨⟨by simp,by simp,by simpa using hruns⟩,rfl⟩
  | reset =>
    -- The run that resets the flag is the only one, so none is left.
    obtain ⟨hrun,hnext⟩ := Option.ite_none_right_eq_some.mp hstep
    cases hnext
    dsimp only at hruns hrun
    split at hruns
    · rename_i hset
      subst hruns
      refine ⟨⟨fun _ => rfl,fun hpc => ?_,by simp⟩,?_⟩
      · exact absurd hpc (not_or.mpr hset.2)
      · simp only [Loop.counted]
        omega
    · omega
  | done =>
    obtain ⟨hleft,hnext⟩ := Option.ite_none_right_eq_some.mp hstep
    cases hnext
    refine ⟨⟨hfresh,hstarting,hruns⟩,?_⟩
    simp only [Loop.counted] at hleft ⊢
    omega

/-- What holds in every state. -/
structure Sound (s : State) : Prop where
  guarded : ∀ n,(s.loops n).Guarded
  wg : s.wg=(s.loops .renewalCheck).counted+(s.loops .jobProcessor).counted+s.others
  others : 0 ≤ s.others
  finished : s.completed=true → ∀ n,(s.loops n).counted=0

theorem counted_nonneg (l : Loop) : 0 ≤ l.counted := by
  unfold Loop.counted
  split_ifs <;> omega

/-- A loop that counts for nothing has left the group and has no run. -/
theorem counted_eq_zero {l : Loop} (h : l.counted=0) : l.pc=.exited ∧ l.runs=0 ∧ l.ending=0 := by
  unfold Loop.counted at h
  split at h
  · rename_i hpc
    rw [hpc,if_neg (by decide)] at h
    exact ⟨hpc,by omega,by omega⟩
  · split at h <;> omega

/-- Such a loop and its runs make no step. -/
theorem step_eq_none {c : Bool} {l : Loop} (h : l.counted=0) (m : Move) : l.step c m=none := by
  obtain ⟨hpc,hruns,hending⟩ := counted_eq_zero h
  cases m with
  | loop => simp only [Loop.step,hpc]
  | tick => exact if_pos (hpc ▸ by decide)
  | cancelled => exact if_neg fun hselect => absurd (hpc.symm.trans hselect.1) (by decide)
  | reset => exact if_neg (by omega)
  | done => exact if_neg (by omega)

theorem sound_reach {others : ℕ} {s : State} (h : Reach others s) : Sound s := by
  induction h with
  | start => exact ⟨fun _ => ⟨fun _ => rfl,nofun,rfl⟩,by simp [Loop.counted]; omega,by simp,nofun⟩
  | @move s l d n m _ hstep ih =>
    obtain ⟨hguarded,hcounted⟩ := guarded_step (ih.guarded n) hstep
    refine ⟨?_,?_,ih.others,fun hover => ?_⟩
    · exact (forall_update_iff s.loops fun _ l => l.Guarded).mpr ⟨hguarded,fun n' _ => ih.guarded n'⟩
    · have hwg := ih.wg
      cases n <;> simp [hwg] <;> omega
    · rw [step_eq_none (ih.finished hover n)] at hstep
      cases hstep
  | other d _ hleft ih => exact ⟨ih.guarded,by have := ih.wg; dsimp only; omega,hleft,ih.finished⟩
  | cancel _ ih => exact ⟨ih.guarded,ih.wg,ih.others,ih.finished⟩
  | @wait s _ _ hzero ih =>
    refine ⟨ih.guarded,ih.wg,ih.others,fun _ n => ?_⟩
    have hwg := ih.wg
    have hothers := ih.others
    have hrenewal := counted_nonneg (s.loops .renewalCheck)
    have hjobs := counted_nonneg (s.loops .jobProcessor)
    cases n <;> dsimp only <;> omega

/-- A loop that receives a tick and goes on as it was has a run in progress. -/
theorem runs_of_skipped {c : Bool} {l : Loop} (h : l.Guarded) (htick : l.step c .tick=some (l,0)) : l.runs=1 := by
  have hselect : l.pc=.select := by
    by_contra hpc
    rw [Loop.step,if_pos hpc] at htick
    cases htick
  have hrunning : l.running=true := by
    by_contra hidle
    rw [Loop.step,if_neg (not_not_intro hselect),if_neg hidle] at htick
    have hpc := congrArg (fun next => next.map (·.1.pc)) htick
    rw [Option.map_some,Option.map_some,hselect] at hpc
    cases hpc
  rw [h.runs,if_pos ⟨hrunning,by rw [hselect]; decide,by rw [hselect]; decide⟩]

/-- Runs of a loop do not overlap, a tick that is received starts a run unless one is in progress, and after the
wait for completion no run is in progress and no loop makes a step, so that none starts. -/
theorem runs_guarded (others : ℕ) (s : State) (h : Reach others s) :
    (∀ n,(s.loops n).runs ≤ 1 ∧ ((s.loops n).step s.cancelled .tick=some (s.loops n,0) → (s.loops n).runs=1)) ∧
    (s.completed=true → ∀ n,(s.loops n).runs=0 ∧ ∀ m,(s.loops n).step s.cancelled m=none) := by
  have hsound := sound_reach h
  refine ⟨fun n => ⟨?_,runs_of_skipped (hsound.guarded n)⟩,fun hover n => ?_⟩
  · rw [(hsound.guarded n).runs]
    split <;> omega
  · have hcounted := hsound.finished hover n
    exact ⟨(counted_eq_zero hcounted).2.1,step_eq_none hcounted⟩

/-- The renewal check has begun its first run when a tick comes. -/
theorem runs_guarded_tick : ∃ s : State,Reach 6 s ∧ (s.loops .renewalCheck).pc=.select ∧
    (s.loops .renewalCheck).step s.cancelled .tick=some (s.loops .renewalCheck,0) ∧ (s.loops .renewalCheck).runs=1 := by
  have hrun : Reach 6 _ :=
    .move .renewalCheck .loop (.move .renewalCheck .loop (.move .renewalCheck .loop .start rfl) rfl) rfl
  exact ⟨_,hrun,rfl,rfl,((runs_guarded 6 _ hrun).1 .renewalCheck).2 rfl⟩

end Certctl.SchedulerLoops
