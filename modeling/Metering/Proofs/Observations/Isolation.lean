import Metering.Proofs.Accounts.Delivery
import Metering.Proofs.Lifetimes.Run
import Metering.Proofs.Observations.Calls

/-!
# When Observations are Isolated

An asynchronous stream should see what the successful callbacks of its own provider observed on its
own instrument. What it sees is what the last provider filed under the number of the instrument, and
numbers are given out by each provider on its own. So the stream is isolated whatever the callbacks
do exactly when every call of the pass that is registered for the number comes from the stream's own
provider and is for that instrument alone.
-/

namespace Metering

variable {α : Type}

/-! ## What a stream should see and what it sees -/

/-- Whether an observation of a callback is on an instrument; what a callback for one instrument
observes is on that one. -/
def Feed.observesOn (f : Feed) (o : ObserverRef) (observation : Observation α) : Bool :=
  match f with
  | .single _ => true
  | .batch _ => decide (observation.target = o)

/-- What a call observed on an instrument of its provider that it is registered for. -/
def Answer.made (o : ObserverRef) (answer : Answer α) : List (Observation α) :=
  if answer.1.callback.provider = o.provider ∧ answer.registered o.number then
    answer.2.observations.filter (answer.1.feed.observesOn o)
  else []

/-- What the successful calls of the instrument's own provider observed on it. -/
def ownObservations (answers : List (List (Answer α))) (o : ObserverRef) : Observations α :=
  merged (answers.flatten.flatMap (·.made o))

/-- What the last provider with a successful call registered for the instrument's number filed under
this number. -/
def seenObservations (answers : List (List (Answer α))) (o : ObserverRef) : Observations α :=
  ((answers.reverse.find? fun group => group.any (·.registered o.number)).map fun group =>
    merged (group.flatMap (·.filed o.number))).getD Table.empty

namespace RegisteredStream

variable [Quantity α] {s : RegisteredStream α} {stream : AsynchronousStream α} {o : ObserverRef}

/-- The data of an asynchronous stream are those of what it sees. -/
theorem data_observed (h : s.source = .asynchronous stream o) (answers : List (List (Answer α)))
    (time : Time) :
    s.data (System.observed (answers.map System.observationPass)) time =
      stream.data (seenObservations answers o) time := by
  rw [data, h, seenObservations, ← System.find?_observed]

theorem source_collected_observed (h : s.source = .asynchronous stream o)
    (answers : List (List (Answer α))) (time : Time) :
    (s.collected (System.observed (answers.map System.observationPass)) time).source =
      .asynchronous (stream.collected (seenObservations answers o) time) o := by
  rw [collected, h, seenObservations, ← System.find?_observed]

end RegisteredStream

/-! ## Calls of one provider only -/

namespace Answer

/-- If calls of only one group file under a number, then these are all that was filed under it. -/
theorem flatMap_find?_reverse {n : Nat} {answers : List (List (Answer α))}
    (hone : answers.Pairwise fun g h =>
      g.any (·.registered n) = true → h.any (·.registered n) = true → False) :
    ((answers.reverse.find? fun group => group.any (·.registered n)).map fun group =>
        merged (group.flatMap (·.filed n))).getD Table.empty =
      merged (answers.flatten.flatMap (·.filed n)) := by
  induction answers using List.reverseRecOn with
  | nil => rfl
  | append_singleton answers group ih =>
    obtain ⟨hanswers, -, hlast⟩ := List.pairwise_append.mp hone
    rw [List.reverse_append, List.reverse_singleton, List.singleton_append, List.find?_cons,
      List.flatten_concat, List.flatMap_append]
    -- Either the last group files nothing, or it is the one group that files.
    cases hgroup : group.any (·.registered n) with
    | false => simpa [flatMap_filed_eq_nil hgroup] using ih hanswers
    | true =>
      have hothers : answers.flatten.flatMap (·.filed n) = [] := by
        apply List.flatMap_eq_nil_iff.mpr
        intro a ha
        apply filed_eq_nil
        intro hregistered
        obtain ⟨g, hg, hag⟩ := List.mem_flatten.mp ha
        exact hlast g hg group (List.mem_singleton_self _)
          (List.any_eq_true.mpr ⟨a, hag, hregistered⟩) hgroup
      rw [hothers]
      rfl

/-- What a callback for one instrument files under its number is what it made there. -/
theorem filed_eq_made {o : ObserverRef} {answer : Answer α}
    (h : answer.registered o.number = true →
      answer.1.callback.provider = o.provider ∧ answer.1.feed = .single o.number) :
    answer.filed o.number = answer.made o := by
  by_cases hregistered : answer.registered o.number = true
  · obtain ⟨hprovider, hfeed⟩ := h hregistered
    have hall : answer.2.observations.filter ((Feed.single o.number).observesOn o) =
        answer.2.observations := List.filter_eq_self.mpr fun _ _ => rfl
    simp [filed, made, hregistered, hprovider, hfeed, Feed.fileUnder, hall]
  · simp [filed, made, hregistered]

end Answer

/-- A number that only single callbacks of one provider are registered for is safe. -/
theorem seen_eq_own {σ : Type} (respond : Responder σ α) (known : σ) {sys : System α}
    {reader : Reader α} {o : ObserverRef}
    (h : ∀ c ∈ (sys.calls reader).flatten, o.number ∈ c.feed.numbers →
      c.callback.provider = o.provider ∧ c.feed = .single o.number) :
    seenObservations (sys.answers respond known reader) o =
      ownObservations (sys.answers respond known reader) o := by
  have hregistered {group : List (Answer α)} (hgroup : group ∈ sys.answers respond known reader)
      {a : Answer α} (ha : a ∈ group) (hr : a.registered o.number = true) :
      a.1.callback.provider = o.provider ∧ a.1.feed = .single o.number :=
    h a.1 (sys.call_mem respond known reader hgroup ha) (Answer.registered_iff.mp hr).2
  -- Groups are of different providers, and the registered calls are of one.
  have hone : (sys.answers respond known reader).Pairwise fun g h =>
      g.any (·.registered o.number) = true → h.any (·.registered o.number) = true → False := by
    apply (System.pairwise_answers respond known).imp_of_mem
    intro g g' hg hg' hne hany hany'
    obtain ⟨a, ha, har⟩ := List.any_eq_true.mp hany
    obtain ⟨b, hb, hbr⟩ := List.any_eq_true.mp hany'
    exact hne a ha b hb ((hregistered hg ha har).1.trans (hregistered hg' hb hbr).1.symm)
  refine (Answer.flatMap_find?_reverse hone).trans (congrArg merged ?_)
  apply List.flatMap_congr
  intro a ha
  apply Answer.filed_eq_made
  intro hr
  obtain ⟨group, hgroup, hag⟩ := List.mem_flatten.mp ha
  exact hregistered hgroup hag hr

/-! ## A callback that interferes -/

/-- Answers the calls of one callback with an observation; all other calls fail. -/
def onlyAnswering (callback : CallbackRef) (observation : Observation α) : Responder Unit α :=
  fun _ c => (if c = callback then ⟨[observation], .returned⟩ else ⟨[], .overran⟩, ())

namespace System

variable {sys : System α} {reader : Reader α} {callback : CallbackRef} {observation : Observation α}

theorem mem_callAll_onlyAnswering {calls : List Call} {answer : Answer α}
    (h : answer ∈ (callAll (onlyAnswering callback observation) () calls).1) :
    answer.2 =
      if answer.1.callback = callback then ⟨[observation], .returned⟩ else ⟨[], .overran⟩ := by
  induction calls with
  | nil => cases h
  | cons c rest ih =>
    rcases List.mem_cons.mp h with rfl | hrest
    · rfl
    · exact ih hrest

theorem mem_answers_onlyAnswering {group : List (Answer α)} {answer : Answer α}
    (hgroup : group ∈ sys.answers (onlyAnswering callback observation) () reader)
    (h : answer ∈ group) :
    answer.2 =
      if answer.1.callback = callback then ⟨[observation], .returned⟩ else ⟨[], .overran⟩ := by
  have hgroups (calls : List (List Call))
      (hmem : group ∈ (callProviders (onlyAnswering callback observation) () calls).1) :
      ∃ cs, group = (callAll (onlyAnswering callback observation) () cs).1 := by
    induction calls with
    | nil => cases hmem
    | cons cs rest ih =>
      rcases List.mem_cons.mp hmem with rfl | hrest
      · exact ⟨cs, rfl⟩
      · exact ih hrest
  obtain ⟨cs, rfl⟩ := hgroups _ hgroup
  exact mem_callAll_onlyAnswering h

/-- If all calls but those of one callback fail, then only its call is registered for anything. -/
theorem eq_of_registered {c : Call} (hc : c ∈ (sys.calls reader).flatten) {group : List (Answer α)}
    {answer : Answer α} {n : Nat}
    (hgroup : group ∈ sys.answers (onlyAnswering c.callback observation) () reader)
    (h : answer ∈ group) (hregistered : answer.registered n = true) :
    answer = (c, ⟨[observation], .returned⟩) := by
  have hanswer := mem_answers_onlyAnswering hgroup h
  split at hanswer
  · rename_i hcallback
    have hcall := call_mem (onlyAnswering c.callback observation) () sys reader hgroup h
    exact Prod.ext (eq_of_mem_calls hcall hc hcallback) hanswer
  · -- A call that overran is registered for nothing.
    have hreturned := (Answer.registered_iff.mp hregistered).1
    rw [hanswer] at hreturned
    cases hreturned

/-- The one call that succeeds is in the group that the stream sees. -/
theorem exists_find?_onlyAnswering (observation : Observation α) {c : Call}
    (hc : c ∈ (sys.calls reader).flatten) {n : Nat} (hn : n ∈ c.feed.numbers) :
    ∃ group, (sys.answers (onlyAnswering c.callback observation) () reader).reverse.find?
        (fun group => group.any (·.registered n)) = some group ∧
      (c, ⟨[observation], .returned⟩) ∈ group := by
  obtain ⟨group, hfound⟩ : ∃ group,
      (sys.answers (onlyAnswering c.callback observation) () reader).reverse.find?
        (fun group => group.any (·.registered n)) = some group := by
    rw [← Option.isSome_iff_exists, List.find?_isSome]
    obtain ⟨group, hgroup, answer, hanswer, rfl⟩ :=
      exists_answer (onlyAnswering c.callback observation) () hc
    have hperformance := mem_answers_onlyAnswering hgroup hanswer
    rw [if_pos rfl] at hperformance
    refine ⟨group, List.mem_reverse.mpr hgroup, List.any_eq_true.mpr ⟨answer, hanswer, ?_⟩⟩
    exact Answer.registered_iff.mpr ⟨by rw [hperformance], hn⟩
  have hgroup := List.mem_reverse.mp (List.mem_of_find?_eq_some hfound)
  have hany : group.any (·.registered n) = true := by simpa using List.find?_some hfound
  obtain ⟨answer, hanswer, hregistered⟩ := List.any_eq_true.mp hany
  obtain rfl := eq_of_registered hc hgroup hanswer hregistered
  exact ⟨group, hfound, hanswer⟩

end System

/-- An observation with a number that the feed knows is filed under it. -/
theorem Feed.fileUnder_eq {f : Feed} {observation : Observation α}
    (hn : observation.target.number ∈ f.numbers) :
    f.fileUnder observation = observation.target.number := by
  cases f with
  | single n => exact (List.mem_singleton.mp hn).symm
  | batch ns => rfl

/-- A call makes nothing on an instrument if it is not a single one of the instrument's provider and
observes another instrument. -/
theorem Answer.made_eq_nil {c : Call} {o : ObserverRef} {observation : Observation α}
    (hforeign : ¬ (c.callback.provider = o.provider ∧ c.feed = .single o.number))
    (hn : o.number ∈ c.feed.numbers) (htarget : observation.target ≠ o) :
    Answer.made o ((c, ⟨[observation], .returned⟩) : Answer α) = [] := by
  rw [made]
  split
  · rename_i hmade
    apply List.filter_eq_nil_iff.mpr
    intro x hx
    obtain rfl := List.mem_singleton.mp hx
    cases hfeed : c.feed with
    | single n =>
      rw [hfeed] at hn
      obtain rfl := List.mem_singleton.mp hn
      exact absurd ⟨hmade.1, hfeed⟩ hforeign
    | batch ns => simp [Feed.observesOn, htarget]
  · rfl

/-- A call under the instrument's number that is not a single one of its provider can make the
stream see what is not its own: if it observes another instrument, and all other calls fail. -/
theorem exists_seen_ne_own {sys : System α} {reader : Reader α} {o : ObserverRef} {c : Call}
    (hc : c ∈ (sys.calls reader).flatten) (hn : o.number ∈ c.feed.numbers)
    (hforeign : ¬ (c.callback.provider = o.provider ∧ c.feed = .single o.number)) (value : α) :
    let respond := onlyAnswering c.callback ⟨⟨o.provider + 1, o.number⟩, [], value⟩
    seenObservations (sys.answers respond () reader) o ≠
      ownObservations (sys.answers respond () reader) o := by
  intro respond
  let observation : Observation α := ⟨⟨o.provider + 1, o.number⟩, [], value⟩
  have htarget : observation.target ≠ o := by
    intro h
    have hprovider : o.provider + 1 = o.provider := congrArg ObserverRef.provider h
    omega
  -- The stream's own provider made nothing on the instrument.
  have hown : ownObservations (sys.answers respond () reader) o = Table.empty := by
    have hnothing : (sys.answers respond () reader).flatten.flatMap (·.made o) = [] := by
      apply List.flatMap_eq_nil_iff.mpr
      intro a ha
      obtain ⟨group, hgroup, hag⟩ := List.mem_flatten.mp ha
      by_cases hregistered : a.registered o.number = true
      · obtain rfl := System.eq_of_registered hc hgroup hag hregistered
        exact Answer.made_eq_nil hforeign hn htarget
      · simp [Answer.made, hregistered]
    rw [ownObservations, hnothing]
    rfl
  -- The call's observation is filed under the number all the same.
  obtain ⟨group, hfound, hmem⟩ := System.exists_find?_onlyAnswering observation hc hn
  have hfiled : Answer.filed o.number ((c, ⟨[observation], .returned⟩) : Answer α) = [observation] := by
    have hfile : c.feed.fileUnder observation = o.number := Feed.fileUnder_eq hn
    simp [Answer.filed, Answer.registered, hn, hfile]
  have hsomething : group.flatMap (·.filed o.number) ≠ [] := by
    intro hnil
    have hempty := List.flatMap_eq_nil_iff.mp hnil _ hmem
    rw [hfiled] at hempty
    cases hempty
  rw [hown, seenObservations, hfound]
  exact merged_ne_empty hsomething

/-! ## When a stream is isolated -/

namespace System

variable [Quantity α]

/-- A pass calls every callback of a stream's provider that is registered for its instrument, and
computes the stream from what the last provider filed under the instrument's number. This is what
its own provider's callbacks observed on the instrument, whatever callbacks do, exactly when all
calls of the pass that are registered for the number are of this provider and for this instrument
alone. -/
theorem isolated_iff {sys : System α} {reader : Reader α} {s : RegisteredStream α}
    (hs : s ∈ reader.streams.values) {stream : AsynchronousStream α} {o : ObserverRef}
    (hsource : s.source = .asynchronous stream o) :
    (∀ p, sys.providers[o.provider]? = some p → ∀ e ∈ p.callbacks.entries,
        o.number ∈ e.2.feed.numbers →
          (⟨⟨o.provider, e.1⟩, e.2.feed⟩ : Call) ∈ (sys.calls reader).flatten) ∧
      (∀ (σ : Type) (respond : Responder σ α) (known : σ),
        let answers := sys.answers respond known reader
        let table := observed (answers.map observationPass)
        s.data table sys.now = stream.data (seenObservations answers o) sys.now ∧
          (s.collected table sys.now).source =
            .asynchronous (stream.collected (seenObservations answers o) sys.now) o) ∧
      ((∀ (σ : Type) (respond : Responder σ α) (known : σ),
          seenObservations (sys.answers respond known reader) o =
            ownObservations (sys.answers respond known reader) o) ↔
        ∀ c ∈ (sys.calls reader).flatten, o.number ∈ c.feed.numbers →
          c.callback.provider = o.provider ∧ c.feed = .single o.number) := by
  refine ⟨fun p hp e he hn => ?_, fun σ respond known => ⟨?_, ?_⟩, ?_, ?_⟩
  · exact mem_calls hs (by rw [RegisteredStream.observer?, hsource]) hp he hn
  · exact RegisteredStream.data_observed hsource _ sys.now
  · exact RegisteredStream.source_collected_observed hsource _ sys.now
  · intro hisolated c hc hn
    -- Were it not so, the callbacks could have this call succeed and no other.
    by_contra hforeign
    exact exists_seen_ne_own hc hn hforeign 0 (hisolated Unit _ ())
  · intro hprivate σ respond known
    exact seen_eq_own respond known hprivate

/-- A counter with a callback of its own, under the only provider of a reader, is isolated. -/
theorem isolated_iff_single_provider :
    let counter : Instrument Int := ⟨⟨.asynchronousCounter, "a", none, none⟩, ⟨none, none⟩⟩
    let sys := ((launched [(.memory .cumulative, 1000)] [(KeyMap.empty, [0])]).run
      (fun _ _ => (⟨[], .returned⟩, ())) () [.create 0 (.named "m") counter 1]).2.2
    let stream : AsynchronousStream Int := .opened ⟨.sum true, none, none, .cumulative, 0⟩
    let s : RegisteredStream Int :=
      ⟨.named "m", KeyMap.empty, "a", none, none, .asynchronous stream ⟨0, 0⟩⟩
    let reader : Reader Int := ((Reader.opened (.memory .cumulative) 1000).register s).2
    s ∈ reader.streams.values ∧ s.source = .asynchronous stream ⟨0, 0⟩ ∧
      (sys.calls reader).flatten.map (·.callback) = [⟨0, 0⟩] ∧
      ∀ (σ : Type) (respond : Responder σ Int) (known : σ),
        seenObservations (sys.answers respond known reader) ⟨0, 0⟩ =
          ownObservations (sys.answers respond known reader) ⟨0, 0⟩ := by
  intro counter sys stream s reader
  have hs : s ∈ reader.streams.values := List.mem_singleton_self s
  have hprivate : ∀ c ∈ (sys.calls reader).flatten, 0 ∈ c.feed.numbers →
      c.callback.provider = 0 ∧ c.feed = .single 0 := by decide +kernel
  exact ⟨hs, rfl, by decide +kernel, (@isolated_iff Int _ sys _ _ hs _ _ rfl).2.2.mpr hprivate⟩

/-- Two providers on one reader give the same number to their first counters. Each has a callback
that observes its own counter, at one and at two; the reader delivers two for both. -/
theorem not_isolated_two_providers :
    let counter (name : String) : Instrument Int :=
      ⟨⟨.asynchronousCounter, name, none, none⟩, ⟨none, none⟩⟩
    let respond : Responder Unit Int :=
      fun _ c => (⟨[⟨⟨c.provider, 0⟩, [], c.provider + 1⟩], .returned⟩, ())
    let sys := ((launched [(.memory .cumulative, 1000)]
      [(KeyMap.empty, [0]), (KeyMap.empty, [0])]).run respond ()
        [.create 0 (.named "m") (counter "a") 1, .create 1 (.named "m") (counter "b") 1]).2.2
    let after := (sys.perform respond () (.collect 0)).2.2
    (sys.readers.map fun reader =>
        let answers := sys.answers respond () reader
        ((ownObservations answers ⟨0, 0⟩).values, (seenObservations answers ⟨0, 0⟩).values)) =
          [([1], [2])] ∧
      (deliveries after.journal).map (fun d => d.2.map fun m => match m.data with
        | .sum points _ _ => (m.name, points.map (·.value))
        | _ => (m.name, [])) = [[("a", [2]), ("b", [2])]] := by
  decide +kernel

end System

end Metering
