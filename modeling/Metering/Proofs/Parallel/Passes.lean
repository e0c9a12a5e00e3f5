import Metering.Proofs.Parallel.Agreement
import Metering.Proofs.Passes.Trace

/-!
# Passes Side by Side

A pass of a reader is made in each of two systems that agree about the reader. If the callbacks that
it calls perform alike, then both passes deliver the same, have the same result and lead to systems
that agree again; and so it is for what is done to readers, one after the other, on two ways. What
exemplars are held of a series that was offered more than its reservoir holds is up to chance, and is
left open.
-/

namespace Metering

variable {α σ σ' : Type}

/-! ## Passes side by side -/

namespace Pass

/-- Whether it is up to chance what exemplars the pass collects of a series. -/
def overfull (pass : Pass σ α) (n : Nat) (f : Attributes) : Bool :=
  (streamAt pass.system.readers (pass.reader, n)).any (·.overfull f)

/-- Whether the callbacks that the pass calls perform in a given way. -/
def Answered (respond : Responder σ α) (outcome : CallbackRef → Performance α) (pass : Pass σ α) :
    Prop :=
  ∀ reader, pass.system.readers[pass.reader]? = some reader →
    ∀ group ∈ pass.system.answers respond pass.known reader, ∀ answer ∈ group,
      answer.2 = outcome answer.1.callback

end Pass

/-- What two passes of one reader have in common. -/
structure SamePass [Quantity α] (respond : Responder σ α) (respond' : Responder σ' α)
    (pass : Pass σ α) (pass' : Pass σ' α) : Prop where
  reader : pass'.reader = pass.reader
  now : pass'.system.now = pass.system.now
  /-- The reader has the same streams, in the same order. -/
  numbers : pass'.system.readers[pass.reader]?.map (·.streams.keys) =
    pass.system.readers[pass.reader]?.map (·.streams.keys)
  /-- Each of them exports the same, but for exemplars that are up to chance. -/
  metrics : ∀ n, pass'.overfull n = pass.overfull n ∧
    (pass'.metric? respond' n).map (·.censored (pass.overfull n)) =
      (pass.metric? respond n).map (·.censored (pass.overfull n))
  /-- Where nothing is up to chance, the batches are the same. -/
  batch : (∀ n f, pass.overfull n f = false) → pass'.batch respond' = pass.batch respond
  /-- The passes have the same result. -/
  verdict : (pass'.system.pass respond' pass'.known pass'.reader).1 =
    (pass.system.pass respond pass.known pass.reader).1

namespace Reservoir

theorem overfull_settled (r : Reservoir α) : r.settled.overfull = r.overfull := by
  rw [overfull, overfull, settled_size, settled_seen]

end Reservoir

theorem RegisteredStream.overfull_settled (rs : RegisteredStream α) :
    rs.settled.overfull = rs.overfull := by
  funext f
  cases hsource : rs.source with
  | synchronous s =>
    simp only [overfull, settled, hsource, SynchronousStream.overfull, SynchronousStream.settled]
    show ((s.series.mapValues (·.settled)).find? f).any (·.overfull) = _
    rw [Table.find?_mapValues]
    cases s.series.find? f with
    | none => rfl
    | some e =>
      cases hreservoir : e.reservoir <;>
        simp [Series.overfull, Series.settled, hreservoir, Reservoir.overfull_settled]
  | asynchronous s o => simp [overfull, settled, hsource]

namespace System

variable {sys : System α} {sys' : System α} {a : Nat}

/-- Callbacks that perform in a given way are all that the answers depend on. -/
theorem answers_eq {respond : Responder σ α} {known : σ} {reader : Reader α}
    {outcome : CallbackRef → Performance α}
    (h : ∀ group ∈ sys.answers respond known reader, ∀ answer ∈ group,
      answer.2 = outcome answer.1.callback) :
    sys.answers respond known reader =
      (sys.calls reader).map (·.map fun c => (c, outcome c.callback)) := by
  have hcalls := map_fst_callProviders respond known (sys.calls reader)
  rw [← hcalls, List.map_map]
  refine (List.map_id _).symm.trans (List.map_congr_left fun group hgroup => ?_)
  rw [Function.comp_apply, List.map_map]
  refine (List.map_id _).symm.trans (List.map_congr_left fun answer hanswer => ?_)
  exact Prod.ext rfl (h group hgroup answer hanswer)

namespace Agree

/-- The streams of the reader itself agree but for what is up to chance. -/
theorem streamAt (h : Agree a sys sys') (n : Nat) :
    (streamAt sys'.readers (a, n)).map (·.settled) = (streamAt sys.readers (a, n)).map (·.settled) := by
  have hfind (reader : Reader α) : (reader.streams.find? n).map (·.settled) =
      (reader.seen true).streams.find? n := (Table.find?_mapValues ..).symm
  simp only [Metering.streamAt]
  rcases h.reader_cases a with ⟨hr, hr'⟩ | ⟨reader, reader', hr, hr', hseen⟩
  · rw [hr, hr']
  · rw [beq_self_eq_true] at hseen
    rw [hr, hr', Option.bind_some, Option.bind_some, hfind, hfind, hseen]

end Agree

variable {respond : Responder σ α} {respond' : Responder σ' α} {known : σ} {known' : σ'}
  {outcome : CallbackRef → Performance α}

/-- What callbacks do in the passes of systems that agree is the same. -/
theorem Agree.answers (h : Agree a sys sys') {reader reader' : Reader α}
    (hr : sys.readers[a]? = some reader) (hr' : sys'.readers[a]? = some reader')
    (hseen : reader'.seen true = reader.seen true)
    (hanswered : Pass.Answered respond outcome ⟨a, known, sys⟩)
    (hanswered' : Pass.Answered respond' outcome ⟨a, known', sys'⟩) :
    sys'.answers respond' known' reader' = sys.answers respond known reader := by
  rw [answers_eq (hanswered reader hr), answers_eq (hanswered' reader' hr'), h.calls hseen]

variable [Quantity α]

/-- What callbacks observe, and what comes of the pass. -/
theorem Agree.pass_own (h : Agree a sys sys')
    (hanswered : Pass.Answered respond outcome ⟨a, known, sys⟩)
    (hanswered' : Pass.Answered respond' outcome ⟨a, known', sys'⟩) :
    Pass.observed respond' ⟨a, known', sys'⟩ = Pass.observed respond ⟨a, known, sys⟩ ∧
      (sys'.pass respond' known' a).1 = (sys.pass respond known a).1 ∧
      Agree a (sys.pass respond known a).2.2 (sys'.pass respond' known' a).2.2 := by
  simp only [Pass.observed, System.pass]
  rcases h.reader_cases a with ⟨hr, hr'⟩ | ⟨reader, reader', hr, hr', hseen⟩
  · simp only [hr, hr']
    exact ⟨trivial, trivial, h⟩
  · rw [beq_self_eq_true] at hseen
    have hanswers : (callProviders respond' known' (sys'.calls reader')).1 =
        (callProviders respond known (sys.calls reader)).1 :=
      h.answers hr hr' hseen hanswered hanswered'
    simp only [hr, hr', System.answers, hanswers]
    exact ⟨trivial, h.exportPass_own hseen _⟩

/-- What is exported for each stream, when callbacks observe the same. -/
theorem Agree.metric? (h : Agree a sys sys')
    (hobserved : Pass.observed respond' ⟨a, known', sys'⟩ = Pass.observed respond ⟨a, known, sys⟩)
    (n : Nat) :
    Pass.overfull ⟨a, known', sys'⟩ n = Pass.overfull ⟨a, known, sys⟩ n ∧
      (Pass.metric? respond' ⟨a, known', sys'⟩ n).map
          (·.censored (Pass.overfull ⟨a, known, sys⟩ n)) =
        (Pass.metric? respond ⟨a, known, sys⟩ n).map
          (·.censored (Pass.overfull ⟨a, known, sys⟩ n)) := by
  have hstream := h.streamAt n
  simp only [Pass.metric?, hobserved]
  cases hrs : Metering.streamAt sys.readers (a, n) with
  | none =>
    rw [hrs] at hstream
    have hrs' := Option.map_eq_none_iff.mp hstream
    exact ⟨funext fun f => by simp only [Pass.overfull, hrs, hrs'], by rw [hrs']; rfl⟩
  | some rs =>
    rw [hrs] at hstream
    obtain ⟨rs', hrs', hsettled⟩ := Option.map_eq_some_iff.mp hstream
    have hoverfull : rs'.overfull = rs.overfull := by
      rw [← rs'.overfull_settled, hsettled, rs.overfull_settled]
    have hpass : Pass.overfull ⟨a, known, sys⟩ n = rs.overfull := by
      funext f
      simp only [Pass.overfull, hrs, Option.any_some]
    refine ⟨funext fun f => ?_, ?_⟩
    · rw [hpass, Pass.overfull, hrs', Option.any_some, hoverfull]
    · have hmetric := congrArg (·.metric? (Pass.observed respond ⟨a, known, sys⟩) sys.now) hsettled
      rw [RegisteredStream.metric?_settled, RegisteredStream.metric?_settled, hoverfull] at hmetric
      rw [hrs', hpass, Option.bind_some, Option.bind_some, h.now]
      exact hmetric

/-- Passes of systems that agree about the reader are the same, and lead to systems that agree. -/
theorem Agree.samePass (h : Agree a sys sys')
    (hanswered : Pass.Answered respond outcome ⟨a, known, sys⟩)
    (hanswered' : Pass.Answered respond' outcome ⟨a, known', sys'⟩) :
    SamePass respond respond' ⟨a, known, sys⟩ ⟨a, known', sys'⟩ ∧
      Agree a (sys.pass respond known a).2.2 (sys'.pass respond' known' a).2.2 := by
  obtain ⟨hobserved, hverdict, hagree⟩ := h.pass_own hanswered hanswered'
  have hnumbers : sys'.readers[a]?.map (·.streams.keys) = sys.readers[a]?.map (·.streams.keys) :=
    h.map_readers (fun _ _ => Table.keys_mapValues ..) a
  refine ⟨⟨rfl, h.now, hnumbers, h.metric? hobserved, fun hnone => ?_, hverdict⟩, hagree⟩
  -- Without chance the metrics are the same, one by one.
  have hsame (n : Nat) : Pass.metric? respond' ⟨a, known', sys'⟩ n =
      Pass.metric? respond ⟨a, known, sys⟩ n := by
    have hid : Metric.censored (Pass.overfull ⟨a, known, sys⟩ n) = (id : Metric α → Metric α) :=
      funext fun m => congrArg (fun data => { m with data }) (m.data.censored_of_forall (hnone n))
    simpa [hid] using (h.metric? hobserved n).2
  rcases h.reader_cases a with ⟨hr, hr'⟩ | ⟨reader, reader', hr, hr', -⟩
  · simp only [Pass.batch, hr, hr']
  · rw [hr, hr'] at hnumbers
    have hkeys : reader'.streams.keys = reader.streams.keys := Option.some.inj hnumbers
    simp only [Pass.batch, hr, hr', hkeys]
    exact List.filterMap_congr fun n _ => hsame n

/-- The pass of another reader leads to a system that agrees with the one before. -/
theorem agree_pass_other (sys : System α) (known : σ) {r : Nat} (hr : r ≠ a) :
    Agree a sys (sys.pass respond known r).2.2 := by
  unfold System.pass
  split
  · exact .refl sys
  · exact .exportPass_other sys hr _ _

/-! ## Actions side by side -/

/-- The passes of one reader among passes. -/
def passesOn (a : Nat) (passes : List (Pass σ α)) : List (Pass σ α) := passes.filter (·.reader == a)

omit [Quantity α] in
/-- Whether the callbacks that the passes of a reader call perform in given ways, pass by pass. -/
def AnsweredOn (a : Nat) (respond : Responder σ α) (outcomes : Nat → CallbackRef → Performance α)
    (passes : List (Pass σ α)) : Prop :=
  ∀ (k : Nat) (pass : Pass σ α), (passesOn a passes)[k]? = some pass →
    pass.Answered respond (outcomes k)

omit [Quantity α] in
theorem AnsweredOn.of_append {outcomes : Nat → CallbackRef → Performance α} {xs ys : List (Pass σ α)}
    (h : AnsweredOn a respond outcomes (xs ++ ys)) :
    AnsweredOn a respond outcomes xs ∧
      AnsweredOn a respond (fun k => outcomes ((passesOn a xs).length + k)) ys := by
  have happend : passesOn a (xs ++ ys) = passesOn a xs ++ passesOn a ys := List.filter_append ..
  constructor
  · intro k pass hpass
    refine h k pass ?_
    rw [happend, List.getElem?_append_left (List.getElem?_eq_some_iff.mp hpass).1]
    exact hpass
  · intro k pass hpass
    refine h _ pass ?_
    rw [happend, List.getElem?_append_right (Nat.le_add_right ..), Nat.add_sub_cancel_left]
    exact hpass

/-- If callbacks perform alike in the passes of a reader on two ways, then these passes are the same,
and what is claimed of where the ways lead holds. -/
def Alongside (a : Nat) (respond : Responder σ α) (respond' : Responder σ' α)
    (passes : List (Pass σ α)) (passes' : List (Pass σ' α)) (claim : Prop) : Prop :=
  ∀ outcomes : Nat → CallbackRef → Performance α, AnsweredOn a respond outcomes passes →
    AnsweredOn a respond' outcomes passes' →
      List.Forall₂ (SamePass respond respond') (passesOn a passes) (passesOn a passes') ∧ claim

namespace Alongside

variable {xs ys : List (Pass σ α)} {xs' ys' : List (Pass σ' α)} {P Q : Prop}

theorem imp (h : Alongside a respond respond' xs xs' P) (hpq : P → Q) :
    Alongside a respond respond' xs xs' Q :=
  fun outcomes hanswered hanswered' =>
    ⟨(h outcomes hanswered hanswered').1, hpq (h outcomes hanswered hanswered').2⟩

/-- Passes of other readers count for nothing. -/
theorem of_other (hxs : ∀ pass ∈ xs, pass.reader ≠ a) (hxs' : ∀ pass ∈ xs', pass.reader ≠ a)
    (hP : P) : Alongside a respond respond' xs xs' P := by
  intro outcomes _ _
  have hnone : passesOn a xs = [] := List.filter_eq_nil_iff.mpr (by simpa using hxs)
  have hnone' : passesOn a xs' = [] := List.filter_eq_nil_iff.mpr (by simpa using hxs')
  rw [hnone, hnone']
  exact ⟨.nil, hP⟩

theorem nil (hP : P) : Alongside a respond respond' [] [] P := of_other (by simp) (by simp) hP

/-- One way after the other: the passes of the first are as many on both sides, so those of the
second are numbered alike. -/
theorem append (h : Alongside a respond respond' xs xs' P)
    (k : P → Alongside a respond respond' ys ys' Q) :
    Alongside a respond respond' (xs ++ ys) (xs' ++ ys') Q := by
  intro outcomes hanswered hanswered'
  obtain ⟨hfirst, hlater⟩ := hanswered.of_append
  obtain ⟨hfirst', hlater'⟩ := hanswered'.of_append
  obtain ⟨hsame, hP⟩ := h outcomes hfirst hfirst'
  rw [← hsame.length_eq] at hlater'
  obtain ⟨hrest, hQ⟩ := k hP _ hlater hlater'
  refine ⟨?_, hQ⟩
  rw [passesOn, passesOn, List.filter_append, List.filter_append]
  exact List.rel_append hsame hrest

end Alongside

section

variable (respond : Responder σ α) (respond' : Responder σ' α) (known : σ) (known' : σ')

/-- What is claimed of an action on a reader: that of the reader in question has the same result. -/
def Results (a r : Nat) (result : Bool × σ × System α) (result' : Bool × σ' × System α) : Prop :=
  (r = a → result'.1 = result.1) ∧ Agree a result.2.2 result'.2.2

theorem Agree.pass (h : Agree a sys sys') (r : Nat) :
    Alongside a respond respond' [⟨r, known, sys⟩] [⟨r, known', sys'⟩]
      (Results a r (sys.pass respond known r) (sys'.pass respond' known' r)) := by
  by_cases hr : r = a
  · subst hr
    intro outcomes hanswered hanswered'
    have hself {τ : Type} (pass : Pass τ α) (hpass : pass.reader = r) :
        passesOn r [pass] = [pass] := List.filter_cons_of_pos (by simpa using hpass)
    rw [AnsweredOn, hself _ rfl] at hanswered hanswered'
    obtain ⟨hsame, hagree⟩ := h.samePass (hanswered 0 _ rfl) (hanswered' 0 _ rfl)
    rw [hself _ rfl, hself _ rfl]
    exact ⟨.cons hsame .nil, fun _ => hsame.verdict, hagree⟩
  · refine .of_other (by simpa using hr) (by simpa using hr) ⟨fun heq => absurd heq hr, ?_⟩
    exact (agree_pass_other sys known hr).symm.trans (h.trans (agree_pass_other sys' known' hr))

theorem Agree.collect (h : Agree a sys sys') (r : Nat) :
    Alongside a respond respond' (passOf known sys r) (passOf known' sys' r)
      (Results a r (sys.collect respond known r) (sys'.collect respond' known' r)) := by
  unfold System.collect passOf
  rw [h.isClosed]
  split
  · exact .nil ⟨fun _ => rfl, h⟩
  · exact h.pass respond respond' known known' r

omit [Quantity α] in
theorem Agree.flushes (h : Agree a sys sys') (r : Nat) :
    (sys'.readers[r]?.map (·.exporter.flushes)).getD false =
      (sys.readers[r]?.map (·.exporter.flushes)).getD false := by
  refine congrArg (·.getD false) (h.map_readers (fun own reader => ?_) r)
  cases own <;> rfl

omit [Quantity α] in
theorem Agree.shutsDown (h : Agree a sys sys') (r : Nat) :
    (sys'.readers[r]?.map (·.exporter.shutsDown)).getD false =
      (sys.readers[r]?.map (·.exporter.shutsDown)).getD false := by
  refine congrArg (·.getD false) (h.map_readers (fun own reader => ?_) r)
  cases own <;> rfl

theorem Agree.flushReader (h : Agree a sys sys') (r : Nat) :
    Alongside a respond respond' (passOf known sys r) (passOf known' sys' r)
      (Results a r (sys.flushReader respond known r) (sys'.flushReader respond' known' r)) := by
  unfold System.flushReader passOf
  rw [h.isClosed]
  split
  · exact .nil ⟨fun _ => rfl, h⟩
  · refine (h.pass respond respond' known known' r).imp fun hresults => ⟨fun hr => ?_, ?_⟩
    · exact congrArg₂ (· && ·) (hresults.1 hr) (hresults.2.flushes r)
    · exact hresults.2.write _ _

theorem Agree.shutdownReader (h : Agree a sys sys') (r : Nat) :
    Alongside a respond respond' (lastPassOf known sys r) (lastPassOf known' sys' r)
      (Results a r (sys.shutdownReader respond known r) (sys'.shutdownReader respond' known' r)) := by
  unfold System.shutdownReader lastPassOf
  rw [h.isClosed]
  split
  · exact .nil ⟨fun _ => rfl, h⟩
  · have hclosing : Agree a (sys.modifyReader r fun reader => { reader with closed := true })
        (sys'.modifyReader r fun reader => { reader with closed := true }) :=
      h.modifyReader r fun _ _ hseen => congrArg (fun reader => { reader with closed := true }) hseen
    refine (hclosing.pass respond respond' known known' r).imp fun hresults =>
      ⟨fun hr => ?_, ?_⟩
    · exact congrArg₂ (· && ·) (hresults.1 hr) (hresults.2.shutsDown r)
    · exact (hresults.2.write _ _).modifyReader r fun _ _ hseen =>
        congrArg (fun reader => { reader with streams := Table.empty }) hseen

theorem Agree.eachReader {passOf : σ → System α → Nat → List (Pass σ α)}
    {passOf' : σ' → System α → Nat → List (Pass σ' α)}
    {act : σ → System α → Nat → Bool × σ × System α}
    {act' : σ' → System α → Nat → Bool × σ' × System α}
    (hact : ∀ {sys sys' : System α} known known' r, Agree a sys sys' →
      Alongside a respond respond' (passOf known sys r) (passOf' known' sys' r)
        (Results a r (act known sys r) (act' known' sys' r)))
    (h : Agree a sys sys') (readers : List Nat) :
    Alongside a respond respond' (eachPassOf passOf act known sys readers)
      (eachPassOf passOf' act' known' sys' readers)
      (Agree a (eachReader act known sys readers).2.2 (eachReader act' known' sys' readers).2.2) := by
  induction readers generalizing sys sys' known known' with
  | nil => exact .nil h
  | cons r rest ih => exact (hact known known' r h).append fun hresults => ih _ _ hresults.2

end

end System

end Metering
