import Mathlib.Data.List.Basic
import Metering.Proofs.LifetimeLaws
import Metering.Proofs.Scripts.Chronicle

/-!
# The Life of a Lifetime

What holds of every script, whatever its tasks do: references are counted right at every moment, the
lifetime ends once, when the last reference is let go, and from then on nothing about it changes. No
task runs before the end, the tasks left before it all run at the end, in order, and those left later
run on the spot.

One operation is looked at first, with a lifetime that lasts and with one that is over. What is known
of the lifetime that any operations have left follows along their order in time, where it does not
matter which task performed which of them; the tree then says where the tasks ran that were handed out.
-/

namespace Metering.Lifetime.Script

/-! ## What operations are for -/

/-- The tasks that an operation leaves for the end. -/
def Step.registered : Step → List Task
  | .onStale name body => [⟨name, body⟩]
  | _ => []

/-- Whether an operation takes a reference of a flavour: it asks for one, and is not refused. -/
def Step.takes (f : Flavour) (l : Lifetime Task) : Step → Bool
  | .acquire g | .tryAcquire g => decide (g = f) && (l.acquire g).1
  | _ => false

/-- Whether an operation gives back a reference of a flavour, and one is held. -/
def Step.givesBack (f : Flavour) (l : Lifetime Task) : Step → Bool
  | .release g => decide (g = f ∧ 0 < l.count g)
  | _ => false

/-- Whether an operation is one that ends a lifetime if it leaves no reference: it gives one back that
is held, or asks whether any is left. -/
def Step.letsGo (l : Lifetime Task) : Step → Bool
  | .check => true
  | .release f => decide (0 < l.count f)
  | _ => false

namespace Deed

def registered (d : Deed) : List Task := d.step.registered

def takes (f : Flavour) (d : Deed) : Bool := d.step.takes f d.before

def givesBack (f : Flavour) (d : Deed) : Bool := d.step.givesBack f d.before

def letsGo (d : Deed) : Bool := d.step.letsGo d.before

end Deed

/-! ## One operation -/

variable {l : Lifetime Task} {steps : List Step} {past ds : List Deed} {d e : Deed}

/-- A count goes up by a reference that is taken, and down by one that is given back. -/
theorem Step.count_apply (l : Lifetime Task) (s : Step) (f : Flavour) :
    (s.apply l).2.2.count f + (s.givesBack f l).toNat = l.count f + (s.takes f l).toNat := by
  cases s with
  | acquire g | tryAcquire g =>
    simp only [apply, givesBack, takes, Lifetime.acquire]
    cases hstale : l.stale with
    | true => simp
    | false =>
      by_cases hg : g = f
      · subst hg
        simp
      · simp [count_withCount_of_ne _ _ (Ne.symm hg), hg]
  | release g =>
    simp only [apply, givesBack, takes]
    by_cases hheld : l.count g = 0
    · simp [release_of_eq_zero hheld, hheld]
    · rw [release_of_ne_zero hheld]
      dsimp only
      rw [count_settle]
      by_cases hg : g = f
      · subst hg
        rw [count_withCount_self, decide_eq_true ⟨rfl, Nat.pos_of_ne_zero hheld⟩]
        simp only [Bool.toNat_true, Bool.toNat_false]
        omega
      · simp [count_withCount_of_ne _ _ (Ne.symm hg), hg]
  | check => simp [apply, givesBack, takes, count_settle]
  | isStale => simp [apply, givesBack, takes]
  | onStale name body =>
    simp only [apply, givesBack, takes, Lifetime.await]
    split
    · rfl
    · cases f <;> rfl

/-- While a lifetime lasts, an operation either leaves it lasting and hands nothing out, or ends it:
it has then let the last reference go, and hands out all that waited. -/
theorem Step.apply_of_lasting (s : Step) (hlasts : l.stale = false) :
    ((s.apply l).2.1 = [] ∧ (s.apply l).2.2.stale = false ∧
      (s.apply l).2.2.pending = l.pending ++ s.registered ∧
      ¬ (s.letsGo l = true ∧ ∀ f, (s.apply l).2.2.count f = 0)) ∨
    ((s.apply l).2 = (l.pending, expired) ∧ s.registered = [] ∧ s.letsGo l = true) := by
  cases s with
  | acquire f | tryAcquire f =>
    refine .inl ⟨rfl, ?_, ?_, fun h => Bool.false_ne_true h.1⟩ <;>
      simp [apply, Lifetime.acquire, hlasts, registered]
  | release f =>
    simp only [apply, registered, List.append_nil]
    by_cases hheld : l.count f = 0
    · rw [release_of_eq_zero hheld]
      exact .inl ⟨rfl, hlasts, rfl, by simp [letsGo, hheld]⟩
    · have hgo : Step.letsGo l (.release f) = true := decide_eq_true (Nat.pos_of_ne_zero hheld)
      rw [release_of_ne_zero hheld]
      dsimp only
      rcases settle_cases (l.withCount (l.count f - 1) f) with ⟨hsettle, hreferenced⟩ | ⟨hsettle, -, -⟩
      · rw [hsettle]
        have hstill : (l.withCount (l.count f - 1) f).stale = false := by simpa using hlasts
        exact .inl ⟨rfl, hstill, by simp, fun h => hreferenced ⟨hstill, h.2⟩⟩
      · rw [hsettle, pending_withCount]
        exact .inr ⟨rfl, trivial, hgo⟩
  | check =>
    simp only [apply, registered, List.append_nil]
    rcases settle_cases l with ⟨hsettle, hreferenced⟩ | ⟨hsettle, -, -⟩
    · rw [hsettle]
      exact .inl ⟨rfl, hlasts, rfl, fun h => hreferenced ⟨hlasts, h.2⟩⟩
    · rw [hsettle]
      exact .inr ⟨rfl, trivial, rfl⟩
  | isStale => exact .inl ⟨rfl, hlasts, (List.append_nil _).symm, fun h => Bool.false_ne_true h.1⟩
  | onStale name body =>
    refine .inl ⟨?_, ?_, ?_, fun h => Bool.false_ne_true h.1⟩ <;>
      simp [apply, Lifetime.await, hlasts, registered]

theorem Step.stale_apply_iff (s : Step) (hlasts : l.stale = false) :
    (s.apply l).2.2.stale = true ↔ s.letsGo l = true ∧ ∀ f, (s.apply l).2.2.count f = 0 := by
  rcases s.apply_of_lasting hlasts with ⟨-, hstill, -, hheld⟩ | ⟨hends, -, hgo⟩
  · exact iff_of_false (by simp [hstill]) hheld
  · exact iff_of_true (by simp [hends]) ⟨hgo, by simp [hends]⟩

/-- Nothing changes a lifetime that is over, and a task that is left is handed out at once. -/
theorem Step.apply_expired (s : Step) : (s.apply expired).2 = (s.registered, expired) := by
  cases s <;> simp [apply, registered]

theorem Step.takes_expired (s : Step) (f : Flavour) : s.takes f expired = false := by
  cases s <;> simp [takes]

/-! ## Any operations -/

/-- What is known of the lifetime that operations have left: its counts, and what became of the tasks
that they left for the end. -/
structure Reached (past : List Deed) (l : Lifetime Task) : Prop where
  counts : ∀ f, l.count f + past.countP (·.givesBack f) = past.countP (·.takes f)
  lasting : l.stale = false →
    l.pending = past.flatMap Deed.registered ∧ past.flatMap Deed.handed = []
  ended : l.stale = true →
    l = expired ∧ (past.flatMap Deed.handed).Perm (past.flatMap Deed.registered)

theorem reached_fresh : Reached [] .fresh where
  counts f := by cases f <;> rfl
  lasting _ := ⟨rfl, rfl⟩
  ended h := absurd h Bool.false_ne_true

theorem Reached.apply_of_stale (h : Reached past l) (hstale : l.stale = true) (s : Step) :
    (s.apply l).2 = (s.registered, expired) := by
  rw [(h.ended hstale).1, s.apply_expired]

/-- One more operation. -/
theorem Reached.step (h : Reached past l) (hbefore : d.before = l) : Reached (past ++ [d]) d.after := by
  subst hbefore
  refine ⟨fun f => ?_, fun hlasts => ?_, fun hended => ?_⟩
  · have hstep := d.step.count_apply d.before f
    have hpast := h.counts f
    simp only [List.countP_append, List.countP_singleton, Deed.after, Deed.givesBack, Deed.takes] at hpast ⊢
    cases hg : d.step.givesBack f d.before <;> cases ht : d.step.takes f d.before <;>
      simp only [hg, ht, Bool.toNat_true, Bool.toNat_false, if_true, if_false, Bool.false_eq_true] at hstep ⊢ <;>
      omega
  all_goals simp only [List.flatMap_append, List.flatMap_singleton]
  · -- What lasts has lasted before, and nothing was handed out.
    cases hstale : d.before.stale with
    | true =>
      simp [Deed.after, h.apply_of_stale hstale] at hlasts
    | false =>
      obtain ⟨hpending, hnone⟩ := h.lasting hstale
      rcases d.step.apply_of_lasting hstale with ⟨hhanded, -, hwaits, -⟩ | ⟨hends, -, -⟩
      · exact ⟨by rw [Deed.after, hwaits, hpending]; rfl, by rw [hnone, Deed.handed, hhanded]; rfl⟩
      · simp [Deed.after, hends] at hlasts
  · -- It was over before, and a task that is left is handed out at once; or this operation hands out
    -- all that were left.
    cases hstale : d.before.stale with
    | true =>
      have happly := h.apply_of_stale hstale d.step
      refine ⟨by rw [Deed.after, happly], ?_⟩
      rw [Deed.handed, happly]
      exact (h.ended hstale).2.append_right _
    | false =>
      obtain ⟨hpending, hnone⟩ := h.lasting hstale
      rcases d.step.apply_of_lasting hstale with ⟨-, hlasts, -, -⟩ | ⟨hends, hregistered, -⟩
      · exact absurd (hlasts.symm.trans hended) Bool.false_ne_true
      · refine ⟨by rw [Deed.after, hends], ?_⟩
        rw [hnone, Deed.handed, hends, Deed.registered, hregistered, ← hpending]
        simp

/-- Along operations each of which met what the one before it had left. -/
theorem Reached.run (h : Reached past l) (hds : Chained l ds) : Reached (past ++ ds) (standing l ds) := by
  induction ds generalizing past l with
  | nil => simpa [standing] using h
  | cons d rest ih =>
    obtain ⟨hbefore, hrest⟩ := hds
    have hstep := h.step hbefore
    rw [Deed.after, hbefore] at hstep
    simpa [standing] using ih hstep hrest

theorem standing_expired (ds : List Deed) : standing expired ds = expired := by
  induction ds with
  | nil => rfl
  | cons d rest ih => simpa [standing, Step.apply_expired] using ih

theorem before_of_chained_expired (hds : Chained expired ds) (hd : d ∈ ds) : d.before = expired := by
  obtain ⟨past, later, rfl⟩ := List.append_of_mem hd
  have hlater := (chained_append.mp hds).2
  exact hlater.1.trans (standing_expired past)

/-! ## The whole tree -/

/-- The chronicle of a script: what happens when its operations are performed on a fresh lifetime. -/
def chronicle (steps : List Step) : List Deed := deeds .fresh steps

theorem before_eq_standing {later : List Deed}
    (hsplit : moments (chronicle steps) = past ++ d :: later) : d.before = standing .fresh past := by
  have hchained : Chained .fresh (moments (chronicle steps)) := chained.2.2 _ _
  rw [hsplit, chained_append] at hchained
  exact hchained.2.1

theorem reached_standing (hpast : past <+: moments (chronicle steps)) :
    Reached past (standing .fresh past) := by
  obtain ⟨later, hlater⟩ := hpast
  have hchained : Chained .fresh (moments (chronicle steps)) := chained.2.2 _ _
  rw [← hlater, chained_append] at hchained
  exact reached_fresh.run hchained.1

theorem exists_reached_of_mem (hd : d ∈ moments (chronicle steps)) : ∃ past, Reached past d.before := by
  obtain ⟨past, later, hsplit⟩ := List.append_of_mem hd
  refine ⟨past, ?_⟩
  rw [before_eq_standing hsplit]
  exact reached_standing ⟨_, hsplit.symm⟩

/-- The tasks that ran because of an operation are those that it was handed. -/
theorem runs_of_mem (hd : d ∈ moments (chronicle steps)) : d.runs = runs d.after d.handed := by
  have h := eq_deed_of_mem.2.2 _ _ d hd
  rw [h, deed]
  rfl

theorem map_task_of_mem (hd : d ∈ moments (chronicle steps)) : d.runs.map TaskRun.task = d.handed := by
  rw [runs_of_mem hd, map_task_runs]

/-- As long as the lifetime lasts, an operation sets nothing off. -/
theorem runs_eq_nil_of_lasting (hd : d ∈ moments (chronicle steps)) (hlasts : d.after.stale = false) :
    d.runs = [] := by
  obtain ⟨past, hreached⟩ := exists_reached_of_mem hd
  have hnone := ((hreached.step rfl).lasting hlasts).2
  rw [List.flatMap_append, List.append_eq_nil_iff, List.flatMap_singleton] at hnone
  rw [runs_of_mem hd, hnone.2, runs]

/-- Whatever sets a task off leaves a lifetime that is over. -/
theorem after_eq_expired {r : TaskRun} (hd : d ∈ moments (chronicle steps)) (hr : r ∈ d.runs) :
    d.after = expired := by
  obtain ⟨past, hreached⟩ := exists_reached_of_mem hd
  refine ((hreached.step rfl).ended ?_).1
  cases hlasts : d.after.stale with
  | true => rfl
  | false =>
    rw [runs_eq_nil_of_lasting hd hlasts] at hr
    cases hr

/-- All that a task does, it does to a lifetime that is over. -/
theorem before_eq_expired {r : TaskRun} (hd : d ∈ moments (chronicle steps)) (hr : r ∈ d.runs)
    (he : e ∈ moments r.deeds) : e.before = expired := by
  have hchained : Chained d.after (momentsOfRuns d.runs) := by
    rw [runs_of_mem hd]
    exact chained.2.1 _ _
  rw [after_eq_expired hd hr] at hchained
  exact before_of_chained_expired hchained (mem_momentsOfRuns_of_mem hr he)

/-- What a script on a fresh lifetime comes to, all that its tasks do included. -/
structure Lifecycle (steps : List Step) (chronicle : List Deed) : Prop where
  /-- The script is performed operation by operation, and so is what every task that runs has to do. -/
  script : chronicle.map Deed.step = steps
  bodies : ∀ d ∈ moments chronicle, ∀ r ∈ d.runs, r.deeds.map Deed.step = r.task.body
  /-- What the script reports of an operation is its answer, what was written down until the last task
  that it set off had run, and the lifetime then. -/
  reports : runAll .fresh steps =
    chronicle.map fun d => (d.answer, logOfRuns d.runs, standing d.before d.moments)
  /-- Every operation meets what those before it have left. -/
  states : ∀ past d later, moments chronicle = past ++ d :: later → d.before = standing .fresh past
  /-- At every moment, as many references of a flavour are held as were taken and not given back. -/
  counts : ∀ past, past <+: moments chronicle → ∀ f,
    (standing .fresh past).count f + past.countP (·.givesBack f) = past.countP (·.takes f)
  /-- Giving back a reference that is not held does nothing. -/
  unbalanced : ∀ d ∈ moments chronicle, ∀ f, d.step = .release f → d.before.count f = 0 →
    d.after = d.before ∧ d.runs = []
  /-- The lifetime ends with the operation that lets the last reference go, and with no other. -/
  ends : ∀ d ∈ moments chronicle, d.before.stale = false →
    (d.after.stale = true ↔ d.letsGo = true ∧ ∀ f, d.after.count f = 0)
  /-- From then on, nothing is held and nothing waits. -/
  forever : ∀ past later, past <+: later → later <+: moments chronicle →
    (standing .fresh past).stale = true → standing .fresh later = expired
  /-- No reference is taken any more. -/
  refused : ∀ d ∈ moments chronicle, d.before.stale = true → ∀ f,
    d.takes f = false ∧ (d.step = .tryAcquire f → d.answer = some false)
  /-- Before the end, no task runs. -/
  silent : ∀ d ∈ moments chronicle, d.after.stale = false → d.runs = []
  /-- At the end, the tasks that were left before run, in order. -/
  ending : ∀ past d later, moments chronicle = past ++ d :: later →
    d.before.stale = false → d.after.stale = true → d.runs.map TaskRun.task = past.flatMap Deed.registered
  /-- After the end, a task that is left runs on the spot, and no other does. -/
  afterwards : ∀ d ∈ moments chronicle, d.before.stale = true → d.runs.map TaskRun.task = d.registered
  /-- All that a task does, it does to a lifetime that is over, and it sees so. -/
  seen : ∀ d ∈ moments chronicle, ∀ r ∈ d.runs, ∀ e ∈ moments r.deeds,
    e.before = expired ∧ (e.step = .isStale → e.answer = some true)
  /-- If the lifetime has ended, every task that was left has run once. -/
  once : (standing .fresh (moments chronicle)).stale = true →
    ((moments chronicle).flatMap fun d => d.runs.map TaskRun.task).Perm
      ((moments chronicle).flatMap Deed.registered)

/-- Every script has this lifecycle. -/
theorem lifecycle_chronicle (steps : List Step) : Lifecycle steps (chronicle steps) where
  script := map_step_deeds _ _
  bodies d hd r hr := by
    rw [runs_of_mem hd] at hr
    obtain ⟨l', hdeeds⟩ := exists_deeds_of_mem_runs hr
    rw [hdeeds, map_step_deeds]
  reports := runAll_eq _ _
  states past d later := before_eq_standing
  counts past hpast f := (reached_standing hpast).counts f
  unbalanced d hd f hstep hzero := by
    have happly : (d.step.apply d.before).2 = ([], d.before) := by
      rw [hstep, Step.apply, release_of_eq_zero hzero]
    refine ⟨by rw [Deed.after, happly], ?_⟩
    rw [runs_of_mem hd, Deed.handed, happly, runs]
  ends d _ hlasts := d.step.stale_apply_iff hlasts
  forever past later hpast hlater hstale := by
    have hexpired := ((reached_standing (hpast.trans hlater)).ended hstale).1
    obtain ⟨ds, rfl⟩ := hpast
    rw [standing_append, hexpired, standing_expired]
  refused d hd hstale f := by
    obtain ⟨past, hreached⟩ := exists_reached_of_mem hd
    have hexpired := (hreached.ended hstale).1
    refine ⟨?_, fun hstep => by simp [Deed.answer, hstep, hexpired, Step.apply]⟩
    rw [Deed.takes, hexpired, Step.takes_expired]
  silent d hd := runs_eq_nil_of_lasting hd
  ending past d later hsplit hlasts hends := by
    have hd : d ∈ moments (chronicle steps) := by simp [hsplit]
    have hreached : Reached past d.before := by
      rw [before_eq_standing hsplit]
      exact reached_standing ⟨_, hsplit.symm⟩
    rw [map_task_of_mem hd, ← (hreached.lasting hlasts).1]
    rcases d.step.apply_of_lasting hlasts with ⟨-, hstill, -, -⟩ | ⟨happly, -, -⟩
    · exact absurd (hstill.symm.trans hends) Bool.false_ne_true
    · rw [Deed.handed, happly]
  afterwards d hd hstale := by
    obtain ⟨past, hreached⟩ := exists_reached_of_mem hd
    rw [map_task_of_mem hd, Deed.handed, hreached.apply_of_stale hstale]
    rfl
  seen d hd r hr e he := by
    have hexpired := before_eq_expired hd hr he
    exact ⟨hexpired, fun hstep => by simp [Deed.answer, hstep, hexpired, Step.apply]⟩
  once hstale := by
    -- Tasks run where they are handed out.
    have hhanded : ((moments (chronicle steps)).flatMap fun d => d.runs.map TaskRun.task) =
        (moments (chronicle steps)).flatMap Deed.handed :=
      List.flatMap_congr fun d hd => map_task_of_mem hd
    rw [hhanded]
    exact ((reached_standing (List.prefix_refl _)).ended hstale).2

/-- A task that leaves another one while it runs at the end, and one that comes too late to wait. -/
example :
    (runAll .fresh
        [.onStale "a" [.isStale, .onStale "b" [.tryAcquire .transient]], .onStale "c" [], .check,
          .onStale "d" []]).map (·.2.1) =
      [[], [], ["a", "a:true", "b", "b:false", "c"], ["d"]] := by
  cbv

end Metering.Lifetime.Script
