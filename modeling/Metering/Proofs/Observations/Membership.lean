import Metering.Proofs.Deltas.Additive
import Metering.Proofs.Observations.Registrations

/-!
# Who Belongs to a Batch

A batch callback is registered for instruments, and may observe any instrument. What it observes is
kept by number: if the instrument was given at the registration, or if one of another provider with
the same number was. What is not kept leaves no trace but a line in the log. What is kept can only
reach streams of instruments with the number, of which each provider has one. So as long as no two
providers share a number in a batch or on a reader, an observation is kept if and only if its
instrument was given, and reaches its own streams only.
-/

namespace Metering

variable {α : Type}

/-! ## One observation more or less -/

/-- Whether answers are others of which one call made one observation more. -/
inductive Omits (call : Call) (o : Observation α) :
    List (List (Answer α)) → List (List (Answer α)) → Prop
  | mk (groups later : List (List (Answer α))) (group rest : List (Answer α))
      (made more : List (Observation α)) (ending : Ending) :
      Omits call o (groups ++ (group ++ (call, ⟨made ++ o :: more, ending⟩) :: rest) :: later)
        (groups ++ (group ++ (call, ⟨made ++ more, ending⟩) :: rest) :: later)

variable {call : Call} {o : Observation α} {answers fewer : List (List (Answer α))}

/-- A call has the same result with and without an observation that is not kept. -/
theorem Performance.result_of_not_keeps {f : Feed} (h : f.keeps o = false)
    (made more : List (Observation α)) (ending : Ending) :
    Performance.result ⟨made ++ o :: more, ending⟩ f = Performance.result ⟨made ++ more, ending⟩ f := by
  have hgather : f.gather (made ++ o :: more) = f.gather (made ++ more) := by
    simp only [Feed.gather, List.filter_append, List.filter_cons, h, Bool.false_eq_true, if_false]
  cases ending with
  | returned => exact congrArg some hgather
  | panicked message => rfl
  | overran => rfl

/-- An observation that is not kept shows in nothing that is merged. -/
theorem Omits.map_observationPass (h : Omits call o answers fewer) (hkeeps : call.feed.keeps o = false) :
    answers.map System.observationPass = fewer.map System.observationPass := by
  cases h with
  | mk groups later group rest made more ending =>
    simp only [List.map_append, List.map_cons, System.observationPass]
    rw [Performance.result_of_not_keeps hkeeps]

/-- Of what is filed under a number, calls see only whether they are registered for it and what they
file there. -/
theorem System.find?_observed_congr {n : Nat}
    (h : answers.map (·.map fun a => (a.registered n, a.filed n)) =
      fewer.map (·.map fun a => (a.registered n, a.filed n))) :
    (observed (answers.map observationPass)).find? n = (observed (fewer.map observationPass)).find? n := by
  have hview (answers : List (List (Answer α))) :
      (observed (answers.map observationPass)).find? n =
        ((answers.map (·.map fun a => (a.registered n, a.filed n))).reverse.find?
          fun group => group.any (·.1)).map fun group => merged (group.flatMap (·.2)) := by
    rw [find?_observed, ← List.map_reverse, List.find?_map, Option.map_map]
    simp only [Function.comp_def, List.any_map, List.flatMap_map]
  rw [hview, hview, h]

/-- An observation of a batch is only seen under the number of its instrument. -/
theorem Omits.find?_observed (h : Omits call o answers fewer) {numbers : List Nat}
    (hfeed : call.feed = .batch numbers) {n : Nat} (hn : o.target.number ≠ n) :
    (System.observed (answers.map System.observationPass)).find? n =
      (System.observed (fewer.map System.observationPass)).find? n := by
  cases h with
  | mk groups later group rest made more ending =>
    have hfiled : Answer.filed n (call, ⟨made ++ o :: more, ending⟩) =
        Answer.filed n (call, ⟨made ++ more, ending⟩) := by
      have hother : (call.feed.fileUnder o == n) = false := by simpa [hfeed, Feed.fileUnder] using hn
      simp only [Answer.filed, Answer.registered, List.filter_append, List.filter_cons, hother,
        Bool.false_eq_true, if_false]
    refine System.find?_observed_congr ?_
    simp only [List.map_append, List.map_cons, hfiled]
    rfl

/-! ## Systems that a dropped observation leaves alone -/

namespace System

variable [Quantity α] {sys : System α} {r : Nat} {reader : Reader α}

/-- Whether a pass does the same with two lists of answers, but for what it writes to the log. -/
structure Indifferent (sys : System α) (r : Nat) (reader : Reader α)
    (answers fewer : List (List (Answer α))) : Prop where
  verdict : (sys.exportPass r reader answers).1 = (sys.exportPass r reader fewer).1
  state : { (sys.exportPass r reader answers).2 with journal := sys.journal } =
    { (sys.exportPass r reader fewer).2 with journal := sys.journal }
  deliveries : deliveries (sys.exportPass r reader answers).2.journal =
    Metering.deliveries (sys.exportPass r reader fewer).2.journal

theorem indifferent_of_map_eq (h : answers.map observationPass = fewer.map observationPass) :
    sys.Indifferent r reader answers fewer := by
  refine ⟨?_, ?_, ?_⟩
  · simp only [exportPass, h]
  · simp only [exportPass, h]
    rfl
  · obtain ⟨entries, hjournal, hentries⟩ := journal_exportPass sys r reader answers
    obtain ⟨entries', hjournal', hentries'⟩ := journal_exportPass sys r reader fewer
    rw [hjournal, hjournal', deliveries_append, deliveries_append, hentries, hentries', h]

end System

/-- Whether two lists of answers make a difference to a stream, in what it exports or in what becomes
of it. -/
def RegisteredStream.Feels [Quantity α] (rs : RegisteredStream α)
    (answers fewer : List (List (Answer α))) : Prop :=
  ∃ time, rs.data (System.observed (answers.map System.observationPass)) time ≠
      rs.data (System.observed (fewer.map System.observationPass)) time ∨
    rs.collected (System.observed (answers.map System.observationPass)) time ≠
      rs.collected (System.observed (fewer.map System.observationPass)) time

/-- An observation of a batch is felt by streams only that are fed under the number of its
instrument. -/
theorem Omits.exists_observer [Quantity α] (h : Omits call o answers fewer) {numbers : List Nat}
    (hfeed : call.feed = .batch numbers) {rs : RegisteredStream α} (hfeels : rs.Feels answers fewer) :
    ∃ p, rs.observer? = some ⟨p, o.target.number⟩ := by
  obtain ⟨time, hfeels⟩ := hfeels
  unfold RegisteredStream.data RegisteredStream.collected at hfeels
  cases hsource : rs.source with
  | synchronous stream => simp [hsource] at hfeels
  | asynchronous stream target =>
    have hobserver : rs.observer? = some target := by simp [RegisteredStream.observer?, hsource]
    by_cases hn : o.target.number = target.number
    · exact ⟨target.provider, by rw [hobserver, hn]⟩
    · simp [hsource, h.find?_observed hfeed hn] at hfeels

/-- The callback that a reply names, if it names one. -/
def Reply.callback? : Reply α → Option CallbackRef
  | .callback c => some c
  | _ => none

theorem Reply.callback?_eq_some {reply : Reply α} {c : CallbackRef} :
    reply.callback? = some c ↔ reply = .callback c := by
  cases reply <;> simp [callback?]

/-! ## Instruments and their numbers -/

/-- Of a list of which no value is made twice, a value is made at one place. -/
theorem eq_of_nodup_filterMap {β γ : Type} {l : List β} {f : β → Option γ} (h : (l.filterMap f).Nodup)
    {i j : Nat} {x y : β} {z : γ} (hi : l[i]? = some x) (hj : l[j]? = some y) (hx : f x = some z)
    (hy : f y = some z) : i = j := by
  induction l generalizing i j with
  | nil => simp at hi
  | cons w rest ih =>
    have hlater {k : Nat} {v : β} (hk : rest[k]? = some v) (hv : f v = some z) (hw : f w = some z) :
        False := by
      rw [List.filterMap_cons_some hw] at h
      exact (List.nodup_cons.mp h).1 (List.mem_filterMap.mpr ⟨v, List.mem_of_getElem? hk, hv⟩)
    have hrest : (rest.filterMap f).Nodup :=
      h.sublist ((List.sublist_cons_self w rest).filterMap f)
    cases i with
    | zero =>
      obtain rfl : w = x := by simpa using hi
      cases j with
      | zero => rfl
      | succ j => exact absurd (by simpa using hj) fun hj => hlater hj hy hx
    | succ i =>
      cases j with
      | zero =>
        obtain rfl : w = y := by simpa using hj
        exact absurd (by simpa using hi) fun hi => hlater hi hx hy
      | succ j => exact congrArg (· + 1) (ih hrest (by simpa using hi) (by simpa using hj))

namespace System

variable {sys : System α}

/-- A provider has one instrument with a number. -/
theorem Catalogued.eq_of_number (h : Catalogued sys) {i j : Nat} {b b' : BuiltInstrument} {m : Nat}
    (hi : sys.instruments[i]? = some b) (hj : sys.instruments[j]? = some b')
    (hb : b.observer = some m) (hb' : b'.observer = some m) (hprovider : b'.provider = b.provider) :
    j = i := by
  refine eq_of_nodup_filterMap h.distinct hj hi (z := ⟨b.provider, m⟩) ?_ ?_
  · rw [BuiltInstrument.ref?, hb', hprovider]
    rfl
  · rw [BuiltInstrument.ref?, hb]
    rfl

/-! ## Registrations of batches -/

/-- The instruments behind some handles. -/
def behind (sys : System α) (handles : List Nat) : List Nat :=
  handles.filterMap fun handle => (sys.instrument? handle).map (·.1)

theorem map_fst_instrument? (sys : System α) (handle : Nat) :
    (sys.instrument? handle).map (·.1) =
      (sys.roster.handles.find? handle).filter fun i => (sys.roster.instruments[i]?).isSome := by
  show _ = (sys.handles.find? handle).filter _
  cases hh : sys.handles.find? handle with
  | none => simp [instrument?, hh]
  | some i => cases hb : sys.instruments[i]? <;> simp [instrument?, hh, hb, roster, Option.filter]

theorem lt_of_mem_behind {handles : List Nat} {i : Nat} (h : i ∈ sys.behind handles) :
    i < sys.instruments.length := by
  obtain ⟨handle, -, hi⟩ := List.mem_filterMap.mp h
  rw [map_fst_instrument?] at hi
  have hbuilt := (Option.filter_eq_some_iff.mp hi).2
  simpa [roster] using hbuilt

/-- The numbers of a batch are those of the asynchronous instruments behind its handles. -/
theorem map_targets (sys : System α) (handles : List Nat) :
    ((handles.filterMap sys.instrument?).filterMap fun t => t.2.observer.map (t.1, ·)).map (·.2) =
      (sys.behind handles).filterMap sys.roster.observer? := by
  simp only [behind, List.filterMap_filterMap, List.map_filterMap]
  refine List.filterMap_congr fun handle _ => ?_
  cases hh : sys.handles.find? handle with
  | none => simp [instrument?, hh]
  | some i => cases hb : sys.instruments[i]? <;> simp [instrument?, hh, hb, observer?_roster, Function.comp_def]

/-- A callback is registered for what was asked, under a number that is given out by then. -/
theorem registration?_registerCallback {p : Nat} {provider : Provider α}
    (hp : sys.providers[p]? = some provider) (feed : Feed) (is captured : List Nat) :
    let after := (sys.registerCallback p feed is captured).2
    provider.nextCallback < after.nextCallback p ∧ ∃ registration,
      after.registration? ⟨p, provider.nextCallback⟩ = some registration ∧ registration.feed = feed := by
  have hentered := providers_registerCallback sys p feed is captured
  rw [hp, Option.map_some, Option.getD_some] at hentered
  have hafter := hentered ▸ getElem?_modify_of_some _ hp
  simp only [nextCallback, registration?, hafter, Option.map_some, Option.getD_some, Option.bind_some,
    Table.find?_insert, BEq.rfl, if_true]
  exact ⟨Nat.lt_succ_self _, _, rfl, rfl⟩

/-- A batch is registered for the numbers of the instruments behind its handles. -/
theorem registration?_registerBatch {p : Nat} {scope : Scope} {handles used : List Nat}
    {c : CallbackRef} (h : (sys.registerBatch p scope handles used).1 = some c) :
    let after := (sys.registerBatch p scope handles used).2
    c.number < after.nextCallback c.provider ∧ ∃ registration,
      after.registration? c = some registration ∧
        registration.feed = .batch ((after.behind handles).filterMap after.roster.observer?) := by
  unfold registerBatch at h ⊢
  cases hp : sys.providers[p]? with
  | none => simp [hp] at h
  | some provider =>
    let cloned := ((sys.modifyProvider p (·.withScope scope)).cloneHandles used).2
    have hp' : cloned.providers[p]? = some (provider.withScope scope) := by
      show (System.cloneHandles _ used).2.providers[p]? = _
      rw [providers_cloneHandles]
      exact getElem?_modify_of_some _ hp
    let feed : Feed := .batch ((cloned.behind handles).filterMap cloned.roster.observer?)
    let instruments :=
      ((handles.filterMap cloned.instrument?).filterMap fun t => t.2.observer.map (t.1, ·)).map (·.1)
    let captured := ((sys.modifyProvider p (·.withScope scope)).cloneHandles used).1
    let after := (cloned.registerCallback p feed instruments captured).2
    obtain ⟨hfst, hroster, -⟩ := registerCallback_roster hp' feed instruments captured
    obtain ⟨hnumber, registration, hregistered, hfeed⟩ :=
      registration?_registerCallback hp' feed instruments captured
    -- Neither the handles nor what they lead to change with the registration.
    have hbehind : after.behind handles = cloned.behind handles := by
      refine List.filterMap_congr fun handle _ => ?_
      rw [map_fst_instrument?, map_fst_instrument?, hroster]
    have hobserver : after.roster.observer? = cloned.roster.observer? :=
      (congrArg Roster.observer? hroster).trans rfl
    simp only [hp] at h ⊢
    rw [map_targets] at h ⊢
    obtain rfl := (Option.some.inj h).symm.trans hfst
    refine ⟨hnumber, registration, hregistered, hfeed.trans ?_⟩
    show Feed.batch ((cloned.behind handles).filterMap cloned.roster.observer?) =
      .batch ((after.behind handles).filterMap after.roster.observer?)
    rw [hbehind, hobserver]

/-! ## Membership -/

/-- What becomes of an observation on an instrument, when a call of a batch callback makes it that was
registered for certain instruments. -/
structure Membership [Quantity α] (sys : System α) (r : Nat) (reader : Reader α) (given : List Nat)
    (call : Call) (i : Nat) (b : BuiltInstrument) (o : Observation α) : Prop where
  /-- It is kept if the instrument was given, or if one of another provider with its number was. -/
  kept_iff : call.feed.keeps o = true ↔ i ∈ given ∨ ∃ j ∈ given, ∃ b' : BuiltInstrument,
    sys.instruments[j]? = some b' ∧ b'.observer = some o.target.number ∧ b'.provider ≠ b.provider
  /-- Then it is filed under the number of the instrument, if the call succeeds. -/
  filed : call.feed.keeps o = true → ∀ made more,
    o ∈ Answer.filed o.target.number (call, ⟨made ++ o :: more, .returned⟩)
  /-- Otherwise the pass goes as if it had not been made. -/
  dropped : call.feed.keeps o = false → ∀ answers fewer, Omits call o answers fewer →
    sys.Indifferent r reader answers fewer
  /-- A stream that feels it is one of the instrument, or of one with its number of another
  provider. -/
  reaches : ∀ answers fewer, Omits call o answers fewer → ∀ s rs, streamAt sys.readers s = some rs →
    rs.Feels answers fewer → ∃ j, ∃ b' : BuiltInstrument, sys.instruments[j]? = some b' ∧
      s ∈ b'.streams ∧ b'.observer = some o.target.number ∧ (b'.provider = b.provider → j = i)

/-- In a system with streams that stem from their instruments, what becomes of an observation is decided
by the numbers that the call is registered for. -/
theorem Rooted.membership [Quantity α] {test : Nat → α → Prop} (h : Rooted test sys)
    (r : Nat) (reader : Reader α) {given : List Nat} {call : Call}
    (hfeed : call.feed = .batch (given.filterMap sys.roster.observer?)) {i : Nat} {b : BuiltInstrument}
    (hb : sys.instruments[i]? = some b) {o : Observation α} (ho : b.ref? = some o.target) :
    sys.Membership r reader given call i b o := by
  have hnumber : b.observer = some o.target.number := by
    obtain ⟨n, hn, href⟩ := Option.map_eq_some_iff.mp ho
    rw [hn, ← href]
  have hkeeps : call.feed.keeps o = true ↔
      ∃ j ∈ given, sys.roster.observer? j = some o.target.number := by
    rw [Feed.keeps, hfeed, List.contains_iff_mem, Feed.numbers, Feed.fileUnder, List.mem_filterMap]
  refine ⟨hkeeps.trans ⟨?_, ?_⟩, fun hkept made more => ?_, fun hnot answers fewer homits => ?_,
    fun answers fewer homits s rs hrs hfeels => ?_⟩
  · rintro ⟨j, hj, hobserver⟩
    rw [observer?_roster] at hobserver
    obtain ⟨b', hb', hobserver⟩ := Option.bind_eq_some_iff.mp hobserver
    by_cases hsame : b'.provider = b.provider
    · obtain rfl := h.catalogued.eq_of_number hb hb' hnumber hobserver hsame
      exact .inl hj
    · exact .inr ⟨j, hj, b', hb', hobserver, hsame⟩
  · rintro (hi | ⟨j, hj, b', hb', hobserver, -⟩)
    · exact ⟨i, hi, by rw [observer?_roster, hb, Option.bind_some, hnumber]⟩
    · exact ⟨j, hj, by rw [observer?_roster, hb', Option.bind_some, hobserver]⟩
  · have hregistered : Answer.registered o.target.number (call, ⟨made ++ o :: more, .returned⟩) = true := by
      rw [Feed.keeps, hfeed] at hkept
      rw [Answer.registered, hfeed]
      simpa [Feed.fileUnder] using hkept
    rw [Answer.filed, if_pos hregistered, hfeed]
    simp [Feed.fileUnder]
  · exact indifferent_of_map_eq (homits.map_observationPass hnot)
  · obtain ⟨p, hobserver⟩ := homits.exists_observer hfeed hfeels
    obtain ⟨j, b', hb', hs, hstems⟩ := h.streams s rs hrs
    rw [hstems.observer?] at hobserver
    obtain ⟨n, hn, href⟩ := Option.map_eq_some_iff.mp hobserver
    obtain ⟨rfl, rfl⟩ := ObserverRef.mk.inj href
    exact ⟨j, b', hb', hs, hn, fun hsame => h.catalogued.eq_of_number hb hb' hnumber hn hsame⟩

/-- What a number leads to never changes: instruments stay what they are. -/
theorem Moves.observer?_roster_eq [Quantity α] {test : Nat → α → Prop} {sys' : System α}
    (h : Moves test sys sys') {i : Nat} (hi : i < sys.instruments.length) :
    sys'.roster.observer? i = sys.roster.observer? i := by
  obtain ⟨b', hb', hident⟩ := Moves.exists_instrument h (List.getElem?_eq_getElem hi)
  rw [observer?_roster, observer?_roster, hb', List.getElem?_eq_getElem hi]
  exact congrArg (·.2.2.1) hident

/-- After any commands, a batch is registered for some handles; after any more, a pass calls it. An
observation that it makes is kept if and only if its instrument is behind one of the handles, or one
of another provider with the same number is. If it is not kept, the pass goes as if it had not been
made, and if it is kept, it reaches streams of its instrument and of instruments of other providers
with the same number only. -/
theorem membership_run [Quantity α] {σ : Type} (respond : Responder σ α) (known : σ)
    (readers : List (Exporter α × Nat)) (providers : List (Resource × List Nat))
    (before : List (Command α)) (p : Nat) (scope : Scope) (handles used : List Nat)
    (after : List (Command α)) (c : CallbackRef) :
    let first := (launched readers providers).run respond known before
    let registered := first.2.2.perform respond first.2.1 (.registerBatch p scope handles used)
    registered.1 = .callback c →
      ∀ pass ∈ registered.2.2.passes respond registered.2.1 after,
        ∀ reader, pass.system.readers[pass.reader]? = some reader →
          ∀ call ∈ (pass.system.calls reader).flatten, call.callback = c →
            ∀ i b, pass.system.instruments[i]? = some b → ∀ o : Observation α, b.ref? = some o.target →
              pass.system.Membership pass.reader reader (registered.2.2.behind handles) call i b o := by
  intro first registered hreply pass hpass reader _ call hcall hc i b hb o ho
  have hresult : (first.2.2.registerBatch p scope handles used).1 = some c ∧
      registered.2.2 = (first.2.2.registerBatch p scope handles used).2 := by
    simp only [registered, perform] at hreply ⊢
    rcases hresult : first.2.2.registerBatch p scope handles used with ⟨_ | _, _⟩
    · simp [hresult] at hreply
    · simpa [hresult] using hreply
  obtain ⟨hregister, hstate⟩ := hresult
  obtain ⟨hnumber, registration, hfound, hfeed⟩ := registration?_registerBatch hregister
  rw [← hstate] at hnumber hfound hfeed
  have hsteps : Steps .all registered.2.2 pass.system := steps_of_mem_passes hpass
  have hrun : Steps .all (launched readers providers) registered.2.2 :=
    (Steps.run respond known _ before).trans (Steps.perform respond first.2.1 _ _).weaken
  have hrooted : Rooted (fun _ _ => True) pass.system :=
    (rooted_launched readers providers).moves (hrun.moves.trans hsteps.moves)
  -- The callback is still registered for what it was registered for.
  obtain ⟨registration', hfound', hfeed'⟩ := registration?_of_mem_calls hcall
  rw [hc] at hfound'
  have hkept := (Retains.of_mem_passes respond _ hpass).kept c registration' hnumber hfound'
  obtain rfl := Option.some.inj (hfound.symm.trans hkept)
  refine hrooted.membership pass.reader reader ?_ hb ho
  rw [hfeed', hfeed]
  exact congrArg Feed.batch (List.filterMap_congr fun j hj =>
    (hsteps.moves.observer?_roster_eq (lt_of_mem_behind hj)).symm)

/-- A batch for one of two instruments of a provider, which observes both. -/
theorem membership_run_outsider :
    let request (name : String) : Command Int :=
      .create 0 (.named "m") ⟨⟨.asynchronousCounter, name, none, none⟩, ⟨none, none⟩⟩ 0
    let inside : Observation Int := ⟨⟨0, 0⟩, [], 3⟩
    let outside : Observation Int := ⟨⟨0, 1⟩, [], 7⟩
    let respond : Responder Unit Int := fun _ _ => (⟨[inside, outside], .returned⟩, ())
    let first := (launched [(.memory .cumulative, 1000)] [(KeyMap.empty, [0])]).run respond ()
      [request "a", request "b"]
    let registered := first.2.2.perform respond first.2.1 (.registerBatch 0 (.named "m") [0] [0, 1])
    let given := registered.2.2.behind [0]
    registered.1 = .callback ⟨0, 0⟩ ∧ given = [0] ∧ ∃ pass reader call b b',
      registered.2.2.passes respond registered.2.1 [.collect 0] = [pass] ∧
        pass.system.readers[pass.reader]? = some reader ∧ call ∈ (pass.system.calls reader).flatten ∧
        pass.system.instruments[0]? = some b ∧ pass.system.instruments[1]? = some b' ∧
        pass.system.Membership pass.reader reader given call 0 b inside ∧
        call.feed.keeps inside = true ∧
        pass.system.Membership pass.reader reader given call 1 b' outside ∧
        call.feed.keeps outside = false := by
  intro request inside outside respond first registered given
  let pass : Pass Unit Int := ⟨0, registered.2.1, registered.2.2⟩
  let call : Call := ⟨⟨0, 0⟩, .batch [0]⟩
  have hreply : registered.1 = .callback ⟨0, 0⟩ := Reply.callback?_eq_some.mp (by decide +kernel)
  have hpasses : registered.2.2.passes respond registered.2.1 [.collect 0] = [pass] := by
    have hopen : registered.2.2.isClosed 0 = false := by decide +kernel
    simp only [passes, passesOf, passOf, hopen, List.append_nil]
    rfl
  have hfound : (pass.system.readers[0]?.map fun reader =>
      decide (call ∈ (pass.system.calls reader).flatten)) = some true := by decide +kernel
  have hrefs : (pass.system.instruments.map (·.ref?)) = [some ⟨0, 0⟩, some ⟨0, 1⟩] := by decide +kernel
  obtain ⟨reader, hreader, hcall⟩ := Option.map_eq_some_iff.mp hfound
  have hcall := of_decide_eq_true hcall
  obtain ⟨b, rest, hinstruments, hb, hrest⟩ := List.map_eq_cons_iff.mp hrefs
  obtain ⟨b', hrest, hb'⟩ := List.map_eq_singleton_iff.mp hrest
  have hzero : pass.system.instruments[0]? = some b := by rw [hinstruments]; rfl
  have hone : pass.system.instruments[1]? = some b' := by rw [hinstruments, hrest]; rfl
  have hmember (i : Nat) (b : BuiltInstrument) (hi : pass.system.instruments[i]? = some b)
      (o : Observation Int) (ho : b.ref? = some o.target) :=
    membership_run respond () [(.memory .cumulative, 1000)] [(KeyMap.empty, [0])]
      [request "a", request "b"] 0 (.named "m") [0] [0, 1] [.collect 0] ⟨0, 0⟩ hreply
      pass (hpasses ▸ List.mem_singleton_self pass) reader hreader call hcall rfl i b hi o ho
  have hgiven : given = [0] := by decide +kernel
  have hinside := hmember 0 b hzero inside hb
  have houtside := hmember 1 b' hone outside hb'
  exact ⟨hreply, hgiven, pass, reader, call, b, b', hpasses, hreader, hcall, hzero, hone, hinside, rfl,
    houtside, rfl⟩

/-- A batch for an instrument of one provider, which observes an instrument of another provider that
has the same number there: the observation is kept, and exported for the instrument that was given. -/
theorem not_outside_two_providers :
    let request (p : Nat) (name : String) : Command Int :=
      .create p (.named "m") ⟨⟨.asynchronousCounter, name, none, none⟩, ⟨none, none⟩⟩ 0
    let outside : Observation Int := ⟨⟨1, 0⟩, [], 7⟩
    let run (made : List (Observation Int)) :=
      ((launched [(.memory .cumulative, 1000), (.memory .cumulative, 1000)]
        [(KeyMap.empty, [0]), (KeyMap.empty, [1])]).run (fun _ _ => (⟨made, .returned⟩, ())) ()
          [request 0 "a", request 1 "b", .registerBatch 0 (.named "m") [0] [1], .collect 0]).2.2
    let exported (made : List (Observation Int)) :=
      (deliveries (run made).journal).map fun d =>
        (d.1, d.2.map fun metric => (metric.name, metric.data.read .total .empty))
    ((run []).instruments[1]?.bind (·.ref?)) = some outside.target ∧ 1 ∉ (run []).behind [0] ∧
      exported [outside] = [(0, [("a", 7)])] ∧ exported [] = [(0, [])] := by
  decide +kernel

end System

end Metering
