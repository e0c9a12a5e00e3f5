import Metering.Proofs.Accounts.Books

/-!
# Opening Accounts and Entering Measurements

The operations that change accounts. A built synchronous instrument has streams that recount an
empty account opened at the same moment, and nobody else's streams are touched. A measurement goes
to each stream of its instrument once, and to no other stream, while the ledger enters it in the
one account of the instrument's address.
-/

namespace Metering

variable {α : Type}

namespace System

variable {sys : System α} {l : Ledger α} {i p : Nat} {b : BuiltInstrument} {provider : Provider α}
  {key : InstrumentKey} {plans : List (StreamPlan α)} {resource : Resource} {scope : Scope}
  {observer : Option ObserverRef}

/-! ## Opened streams -/

/-- A stream is found after another was offered if it was there before or is the one taken. -/
theorem streamAt_place (sys : System α) (r : Nat) (stream : RegisteredStream α) (s : Nat × Nat) :
    streamAt (sys.place r stream).2.readers s =
      if (sys.place r stream).1.map (r, ·) = some s then some stream else streamAt sys.readers s := by
  cases hnumber : (sys.place r stream).1 with
  | none =>
    rw [Option.map_none, if_neg (by simp)]
    -- A reader that gives no number stays as it is.
    refine streamAt_modify_of_eq (fun reader hreader => ?_) s
    have hnone : (reader.register stream).1 = none := by simpa [place, hreader] using hnumber
    rw [Reader.register_eq_none hnone]
  | some n =>
    obtain ⟨reader, hr, hn⟩ := Option.bind_eq_some_iff.mp hnumber
    obtain ⟨hopen, rfl⟩ := Reader.register_eq_some.mp hn
    obtain ⟨q, m⟩ := s
    show streamAt (sys.readers.modify r _) (q, m) = _
    rw [streamAt_modify]
    simp only [Option.map_some, Option.some.injEq, Prod.mk.injEq]
    by_cases hq : r = q
    · subst hq
      rw [if_pos rfl, hr, Option.bind_some]
      simp only [Reader.register, hopen, Bool.false_eq_true, if_false, Table.find?_insert, beq_iff_eq,
        true_and, streamAt, hr, Option.bind_some]
    · rw [if_neg hq, if_neg fun h => hq h.1]

/-- A stream that is found after plans were carried out is a planned one, or was there before. -/
theorem streamAt_openStreams_cases {s : Nat × Nat} {rs : RegisteredStream α}
    (h : streamAt (sys.openStreams resource scope observer plans).2.readers s = some rs) :
    (s ∈ (sys.openStreams resource scope observer plans).1 ∧
      ∃ plan ∈ plans, rs = sys.planned resource scope observer plan) ∨
        streamAt sys.readers s = some rs := by
  induction plans generalizing sys with
  | nil => exact .inr h
  | cons plan rest ih =>
    rw [openStreams_cons] at h ⊢
    -- Either the rest of the plans made the stream, or it was found after the first.
    rcases ih h with ⟨hmem, plan', hplan', hrs⟩ | hbefore
    · exact .inl ⟨List.mem_append_right _ hmem, plan', List.mem_cons_of_mem _ hplan', hrs⟩
    · rw [streamAt_place] at hbefore
      split at hbefore
      · rename_i htaken
        refine .inl ⟨List.mem_append_left _ ?_, plan, List.mem_cons_self ..,
          (Option.some.inj hbefore).symm⟩
        obtain ⟨n, hn, rfl⟩ := Option.map_eq_some_iff.mp htaken
        rw [hn]
        exact List.mem_singleton.mpr rfl
      · exact .inr hbefore

/-- Only streams that were built are ever found. -/
theorem Registered.mem_built {readers : List (Reader α)} {built live : List (Nat × Nat)}
    (h : Registered readers built live) {s : Nat × Nat} {rs : RegisteredStream α}
    (hs : streamAt readers s = some rs) : s ∈ built := by
  obtain ⟨reader, hr, hrs⟩ := Option.bind_eq_some_iff.mp hs
  have hkey : s.2 ∈ reader.streams.keys := Table.find?_isSome_iff_mem_keys.mp (by rw [hrs]; rfl)
  rw [h.listed s.1 reader hr] at hkey
  split at hkey
  · simp at hkey
  · exact h.live_subset s (mem_numbersOn.mp hkey)

/-- Whether an instrument that is built gets numbers for its streams under which nothing was built. -/
structure OpensAnew (sys : System α) (p : Nat) (provider : Provider α) (key : InstrumentKey)
    (plans : List (StreamPlan α)) : Prop where
  found : ∀ s rs, streamAt sys.readers s = some rs → s ∈ sys.builtStreams
  nodup : (sys.builtStreams ++ (sys.opening p provider key plans).1).Nodup

theorem Housed.opensAnew (h : Housed sys) (p : Nat) (provider : Provider α) (key : InstrumentKey)
    (plans : List (StreamPlan α)) : OpensAnew sys p provider key plans := by
  have hregistered : Registered (sys.opening p provider key plans).2.readers
      (sys.builtStreams ++ (sys.opening p provider key plans).1)
      (sys.liveStreams ++ (sys.opening p provider key plans).1) :=
    registered_openStreams h.registered plans
  exact ⟨fun s rs hrs => Registered.mem_built h.registered hrs, hregistered.nodup⟩

/-- The streams of a newborn are new, and those of the others are as they were. -/
theorem OpensAnew.streamAt_cases (h : OpensAnew sys p provider key plans) {s : Nat × Nat}
    {rs : RegisteredStream α}
    (hrs : streamAt (sys.withNewborn p provider key plans).readers s = some rs) :
    (s ∈ (sys.newborn p provider key plans).streams ∧ s ∉ sys.builtStreams ∧
      ∃ plan, rs = sys.planned provider.resource key.scope
        ((sys.newborn p provider key plans).observer.map (⟨p, ·⟩)) plan) ∨
      (s ∈ sys.builtStreams ∧ s ∉ (sys.newborn p provider key plans).streams ∧
        streamAt sys.readers s = some rs) := by
  -- A number is given out once, so what was opened had not been built.
  have hdisjoint : ∀ a ∈ sys.builtStreams, a ∉ (sys.opening p provider key plans).1 :=
    fun a ha ha' => (List.nodup_append.mp h.nodup).2.2 a ha a ha' rfl
  rcases streamAt_openStreams_cases hrs with ⟨hmem, hplan⟩ | hbefore
  · exact .inl ⟨hmem, fun hbuilt => hdisjoint s hbuilt hmem, hplan.imp fun _ h => h.2⟩
  · have hbuilt := h.found s rs hbefore
    exact .inr ⟨hbuilt, hdisjoint s hbuilt, hbefore⟩

/-! ## Opening an account -/

/-- A meter keeps the scope that it was first asked for with, which is equal. -/
theorem beq_meterScope (provider : Provider α) (scope : Scope) :
    (scope == provider.meterScope scope) = true := by
  unfold Provider.meterScope
  cases hfound : provider.scopes.find? (· == scope) with
  | none => exact BEq.rfl
  | some first =>
    have hfirst : (first == scope) = true := by simpa using List.find?_some hfound
    exact BEq.symm hfirst

variable [Quantity α]

/-- A planned synchronous stream recounts the account that is opened when it begins. -/
theorem recounts_planned (plan : StreamPlan α) :
    (sys.planned resource scope none plan).Recounts (.opened sys.now) :=
  ⟨_, rfl, Metering.Recounts.opened (plan.settings sys.now)⟩

/-- The streams of a newborn recount an account that is opened with it. -/
theorem OpensAnew.recounted (h : OpensAnew sys p provider key plans)
    (hsync : (sys.newborn p provider key plans).observer = none) :
    (sys.withNewborn p provider key plans).Recounted (sys.newborn p provider key plans).streams
      (.opened sys.now) := by
  intro s hs rs hrs
  rcases h.streamAt_cases hrs with ⟨-, -, plan, rfl⟩ | ⟨-, hother, -⟩
  · rw [hsync]
    exact recounts_planned plan
  · exact absurd hs hother

/-- What the streams of another instrument recount is not changed by a newborn. -/
theorem Recounted.withNewborn {account : Account α} (h : OpensAnew sys p provider key plans)
    (hb : sys.instruments[i]? = some b) (hrecounted : sys.Recounted b.streams account) :
    (sys.withNewborn p provider key plans).Recounted b.streams account := by
  intro s hs rs hrs
  rcases h.streamAt_cases hrs with ⟨-, hnew, -⟩ | ⟨-, -, hrs⟩
  · exact absurd (List.mem_flatMap.mpr ⟨b, List.mem_of_getElem? hb, hs⟩) hnew
  · exact hrecounted s hs rs hrs

/-- Nothing that is alive has the address of an instrument that is built. -/
theorem Booked.isLive_eq_false (h : Booked l sys) (hcoherent : Coherent sys)
    (hp : sys.providers[p]? = some provider)
    (hnew : ∀ e ∈ provider.cache.entries, (e.1 == key) = false) {a : Address}
    (ha : (a == ⟨p, key⟩) = true) : l.isLive a = false := by
  cases hlive : l.isLive a with
  | false => rfl
  | true =>
    -- At a live address there is a living instrument, which is cached under an equal key.
    obtain ⟨handle, i, hhandle, hnames⟩ := (h.mirrors.isLive_iff a).mp hlive
    obtain ⟨b, hb, hab⟩ := names_iff.mp hnames
    obtain ⟨b', hb', halive⟩ := isAlive_iff.mp (hcoherent.isAlive_of_handle hhandle)
    obtain rfl := Option.some.inj (hb.symm.trans hb')
    obtain ⟨hprovider, hkey⟩ := Address.beq_iff.mp (BEq.trans (BEq.symm ha) hab)
    have hprovider : p = b.provider := hprovider
    have hkey : (key == b.key) = true := hkey
    have hmem := (hcoherent.balanced.housed.cached p provider hp b.key i).mpr
      ⟨b, hb, halive, hprovider.symm, rfl⟩
    have hne := hnew _ hmem
    rw [BEq.symm hkey] at hne
    cases hne

/-- Building an instrument opens an account at its address. -/
theorem Booked.withNewborn {q : Provider α} (h : Booked l sys) (hcoherent : Coherent sys)
    (hp : sys.providers[p]? = some q)
    (hnew : ∀ e ∈ q.cache.entries, (e.1 == key) = false) {a : Address}
    (ha : (a == ⟨p, key⟩) = true) :
    Booked { l with accounts := l.accountsWith a } (sys.withNewborn p provider key plans) := by
  have hdead := h.isLive_eq_false hcoherent hp hnew ha
  have hanew := hcoherent.balanced.housed.opensAnew p provider key plans
  refine ⟨h.now, ?_, ?_⟩
  · refine (h.mirrors.withAccounts _).of_eq rfl rfl ?_ ?_
    · intro i a' ha'
      rw [address?_roster] at ha' ⊢
      obtain ⟨b, hb, rfl⟩ := Option.map_eq_some_iff.mp ha'
      show ((sys.instruments ++ [_])[i]?).map _ = _
      rw [List.getElem?_append_left (List.getElem?_eq_some_iff.mp hb).1, hb]
      rfl
    · intro c
      have hcallbacks : (sys.withNewborn p provider key plans).roster.callbacks =
          sys.roster.callbacks := map_modify_of_eq fun _ _ => rfl
      simp only [Roster.kept, hcallbacks]
  · intro i b hb halive hsync
    rcases getElem?_withNewborn hb with ⟨rfl, rfl⟩ | ⟨-, hb⟩
    · -- The newborn has the account opened now, and what is found under its numbers is its own.
      have ha : (a == (sys.newborn p provider key plans).address) = true := ha
      refine ⟨.opened l.now, ?_, h.now ▸ hanew.recounted hsync⟩
      simp only [Ledger.accountsWith, hdead, Bool.false_eq_true, if_false, Table.find?_insert, ha,
        if_true]
    · -- The others have the accounts and the streams that they had.
      obtain ⟨account, haccount, hrecounts⟩ := h.accounts i b hb halive hsync
      exact ⟨account, (h.find?_accountsWith hcoherent a hb halive hsync).trans haccount,
        Recounted.withNewborn hanew hb hrecounts⟩

/-- A request that is granted leaves the accounts as they are if the instrument was alive, and opens
one if it was built; one that is refused does neither. -/
theorem Booked.procure {q : Provider α} (h : Booked l sys) (hcoherent : Coherent sys)
    (hp : sys.providers[p]? = some q) (hcache : q.cache = provider.cache)
    {scope : Scope} {instrument : Instrument α} {a : Address}
    (ha : (a == ⟨p, ⟨scope, instrument.identity⟩⟩) = true) :
    match sys.procure p provider scope instrument with
    | (.error _, sys') => Booked l sys'
    | (.ok found, sys') =>
      Booked { l with accounts := l.accountsWith a } sys' ∧ sys'.roster.Names a found := by
  rcases procure_cases sys p provider scope instrument with
    ⟨e, entries, -, heq⟩ | ⟨found, hfound, halive, heq⟩ | ⟨entries, plans, hnone, -, heq⟩
  · rw [heq]
    exact h.descend_of_roster_eq (.write sys entries) rfl
  · rw [heq]
    have hroster := roster_acquire sys found .transient
    refine ⟨(h.withAccounts hcoherent a).descend_of_roster_eq (.acquire sys found _) hroster, ?_⟩
    rw [hroster, names_iff]
    rw [← hcache] at hfound
    obtain ⟨k, hmem, hk⟩ := Table.exists_of_find?_eq_some hfound
    obtain ⟨b, hb, -, rfl, rfl⟩ := (hcoherent.balanced.housed.cached _ q hp k found).mp hmem
    exact ⟨b, hb, BEq.trans ha (Address.beq_iff.mpr ⟨rfl, BEq.symm hk⟩)⟩
  · rw [heq]
    have hwritten : Coherent (sys.write entries) := hcoherent.of_frame_eq (frame_write sys entries)
    have hnew := forall_ne_of_filter_isAlive hcoherent.balanced.housed.cached hp (hcache ▸ hnone)
    refine ⟨(h.descend_of_roster_eq (.write sys entries) rfl).withNewborn hwritten hp hnew ha, ?_⟩
    exact names_iff.mpr ⟨_, getElem?_withNewborn_last (sys.write entries) .., ha⟩

/-- A request has the effect of a grant in the ledger exactly when it succeeds. -/
theorem Booked.create (h : Booked l sys) (hcoherent : Coherent sys) (p : Nat) (scope : Scope)
    (instrument : Instrument α) (callbacks : Nat) :
    match sys.create p scope instrument callbacks with
    | (some (.ok _), sys') => Booked (l.grant ⟨p, ⟨scope, instrument.identity⟩⟩) sys'
    | (_, sys') => Booked l sys' := by
  unfold System.create
  cases hp : sys.providers[p]? with
  | none => exact h
  | some provider =>
    let asked := sys.modifyProvider p (·.withScope scope)
    have hframe : asked.frame = sys.frame := frame_withScope p scope
    have hasked : Coherent asked := hcoherent.of_frame_eq hframe
    have hbooked : Booked l asked :=
      h.descend_of_roster_eq (.modifyProvider sys p _) (congrArg (·.2.2.2) hframe)
    have hp' : asked.providers[p]? = some (provider.withScope scope) := getElem?_modify_of_some _ hp
    have hcache := cache_withScope provider scope
    -- The key that is asked for is not always the cached one, but equal to it.
    have ha : ((⟨p, ⟨scope, instrument.identity⟩⟩ : Address) ==
        ⟨p, ⟨provider.meterScope scope, instrument.identity⟩⟩) = true :=
      Address.beq_iff.mpr ⟨rfl, InstrumentKey.beq_iff.mpr ⟨beq_meterScope provider scope, rfl⟩⟩
    have hprocured := hasked.procure hp' hcache (provider.meterScope scope) instrument
    have hgranted := hbooked.procure hasked hp' hcache ha
    simp only
    cases instrument.check with
    | error e => exact hbooked
    | ok _ =>
      simp only
      rcases hresult : asked.procure p provider (provider.meterScope scope) instrument with
        ⟨_ | found, granted⟩
      · rw [hresult] at hgranted
        exact hgranted
      · rw [hresult] at hprocured hgranted
        obtain ⟨hbalanced, hformed, hbuilt, hlength⟩ := hprocured
        obtain ⟨hgranted, hnames⟩ := hgranted
        have hhanded : Booked (l.grant ⟨p, ⟨scope, instrument.identity⟩⟩) (granted.adopt found).2 :=
          hgranted.descend (.adopt granted found) (hgranted.mirrors.hand hnames) rfl rfl
        simp only
        cases hobserver : granted.instruments[found]?.bind (·.observer) with
        | none => exact hhanded
        | some number =>
          have hprovided : p < granted.providers.length := by
            rw [hlength]
            exact (List.getElem?_eq_some_iff.mp hp').1
          have hfeedable := hbalanced.feedable_adopt hformed hbuilt hprovided hobserver
          exact hhanded.descend (.registerSingles _ p number found callbacks)
            (hfeedable.mirrors_registerSingles hhanded.mirrors callbacks) rfl rfl

/-! ## Entering a measurement -/

theorem streamAt_foldl_record (value : α) (attributes : Attributes) (draw : Nat → Nat)
    {streams : List (Nat × Nat)} (hnodup : streams.Nodup) (first : Nat) (sys : System α)
    (t : Nat × Nat) :
    streamAt ((streams.zipIdx first).foldl (fun sys s => sys.modifyReader s.1.1 fun r =>
        r.record s.1.2 (draw s.2) value attributes sys.now) sys).readers t =
      if t ∈ streams then
        (streamAt sys.readers t).map
          (·.record (draw (first + streams.idxOf t)) value attributes sys.now)
      else streamAt sys.readers t := by
  induction streams generalizing sys first with
  | nil => rfl
  | cons s rest ih =>
    obtain ⟨hnew, hrest⟩ := List.nodup_cons.mp hnodup
    have hstep : streamAt (sys.modifyReader s.1 fun reader =>
          reader.record s.2 (draw first) value attributes sys.now).readers t =
        if t = s then
          (streamAt sys.readers t).map (·.record (draw first) value attributes sys.now)
        else streamAt sys.readers t := streamAt_modifyStream sys.readers s _ t
    rw [List.zipIdx_cons, List.foldl_cons, ih hrest, hstep]
    -- The streams are distinct, so one that is written to now is not written to again.
    by_cases ht : t = s
    · subst ht
      rw [if_neg hnew, if_pos rfl, if_pos (List.mem_cons_self ..), List.idxOf_cons_self, Nat.add_zero]
    · have hidx : first + 1 + rest.idxOf t = first + (s :: rest).idxOf t := by
        rw [List.idxOf_cons_ne rest (Ne.symm ht)]
        omega
      simp only [List.mem_cons, ht, false_or, hidx]
      rfl

/-- A measurement that goes to streams shows once in each of them, with the draw for its place among
them, and nowhere else. -/
theorem streamAt_writeTo (sys : System α) (value : α) (attributes : Attributes) (draw : Nat → Nat)
    {streams : List (Nat × Nat)} (hnodup : streams.Nodup) (t : Nat × Nat) :
    streamAt (sys.writeTo value attributes draw streams).readers t =
      if t ∈ streams then
        (streamAt sys.readers t).map (·.record (draw (streams.idxOf t)) value attributes sys.now)
      else streamAt sys.readers t := by
  have hall := streamAt_foldl_record value attributes draw hnodup 0 sys t
  rwa [Nat.zero_add] at hall

theorem now_writeTo (value : α) (attributes : Attributes) (draw : Nat → Nat)
    (streams : List (Nat × Nat)) : (sys.writeTo value attributes draw streams).now = sys.now := by
  unfold writeTo
  induction streams.zipIdx generalizing sys with
  | nil => rfl
  | cons x rest ih => exact ih

/-- The log objects to a measurement exactly when the ledger does not accept it. -/
theorem objection_eq_none_iff (key : InstrumentKey) (value : α) :
    objection key value = none ↔ Ledger.accepts key.identity.kind value = true := by
  unfold objection Ledger.accepts
  by_cases hkind : key.identity.kind = .counter
  · cases hbelow : Quantity.below value 0 <;> cases hnan : Quantity.isNaN value <;> simp [hkind]
  · cases hnan : Quantity.isNaN value <;> simp [hkind]

end System

/-- A synchronous stream that records a measurement recounts the account that has it entered. -/
theorem RegisteredStream.Recounts.record [Quantity α] {account : Account α}
    {rs : RegisteredStream α} (h : rs.Recounts account) (draw : Nat) (value : α)
    (attributes : Attributes) (time : Time) :
    (rs.record draw value attributes time).Recounts (account.enter ⟨value, attributes, time⟩) := by
  obtain ⟨s, hs, hrecounts⟩ := h
  refine ⟨s.record draw value attributes time, ?_, hrecounts.record draw value attributes time⟩
  simp [RegisteredStream.record, hs]

namespace System

variable {sys : System α} {l : Ledger α} [Quantity α]

section

variable {account : Account α} {streams : List (Nat × Nat)}

/-- Streams that a measurement goes to recount the account that has it entered. -/
theorem Recounted.writeTo (h : sys.Recounted streams account) (hnodup : streams.Nodup) (value : α)
    (attributes : Attributes) (draw : Nat → Nat) :
    (sys.writeTo value attributes draw streams).Recounted streams
      (account.enter ⟨value, attributes, sys.now⟩) := by
  intro s hs rs' hrs'
  -- Each of them recorded it, with whatever draw.
  rw [streamAt_writeTo sys value attributes draw hnodup, if_pos hs] at hrs'
  obtain ⟨rs, hrs, rfl⟩ := Option.map_eq_some_iff.mp hrs'
  exact (h s hs rs hrs).record _ value attributes sys.now

/-- Other streams recount what they did. -/
theorem Recounted.writeTo_other (h : sys.Recounted streams account) {other : List (Nat × Nat)}
    (hnodup : other.Nodup) (hdisjoint : ∀ s ∈ streams, s ∉ other) (value : α)
    (attributes : Attributes) (draw : Nat → Nat) :
    (sys.writeTo value attributes draw other).Recounted streams account := by
  intro s hs rs hrs
  rw [streamAt_writeTo sys value attributes draw hnodup, if_neg (hdisjoint s hs)] at hrs
  exact h s hs rs hrs

end

/-- A measurement that goes to the streams of a living instrument belongs in its account: no other
living instrument has its address or any of its streams. -/
theorem Booked.writeTo (h : Booked l sys) (hcoherent : Coherent sys) {i : Nat}
    {b : BuiltInstrument} (hb : sys.instruments[i]? = some b) (halive : b.lifetime.stale = false)
    {a : Address} (hab : (a == b.address) = true) (value : α) (attributes : Attributes)
    (draw : Nat → Nat) :
    Booked
      { l with
        accounts := l.accounts.modify a fun account => account.enter ⟨value, attributes, l.now⟩ }
      (sys.writeTo value attributes draw b.streams) := by
  have hbuilt : sys.builtStreams.Nodup := hcoherent.balanced.housed.registered.nodup
  have hnodup : b.streams.Nodup := (List.nodup_flatMap.mp hbuilt).1 b (List.mem_of_getElem? hb)
  have hframe := frame_writeTo sys value attributes draw b.streams
  have hinstruments : (sys.writeTo value attributes draw b.streams).instruments =
      sys.instruments := congrArg (·.1) hframe
  have hroster : (sys.writeTo value attributes draw b.streams).roster = sys.roster :=
    congrArg (·.2.2.2) hframe
  refine ⟨?_, ?_, ?_⟩
  · rw [now_writeTo]
    exact h.now
  · rw [hroster]
    exact h.mirrors.withAccounts _
  · intro j b' hb' halive' hsync'
    rw [hinstruments] at hb'
    obtain ⟨account, haccount, hrecounts⟩ := h.accounts j b' hb' halive' hsync'
    by_cases hij : j = i
    · subst hij
      obtain rfl := Option.some.inj (hb'.symm.trans hb)
      refine ⟨account.enter ⟨value, attributes, l.now⟩, ?_, ?_⟩
      · rw [Table.find?_modify, hab, if_pos rfl, haccount]
        rfl
      · rw [h.now]
        exact Recounted.writeTo hrecounts hnodup value attributes draw
    · -- Another living instrument has another address and other streams.
      have hother : (a == b'.address) = false := by
        cases hab' : a == b'.address with
        | false => rfl
        | true =>
          have hsame : (b'.address == b.address) = true := BEq.trans (BEq.symm hab') hab
          exact absurd (hcoherent.balanced.housed.eq_of_address hb' halive' hb halive hsame) hij
      have hdisjoint : ∀ s ∈ b'.streams, s ∉ b.streams :=
        fun s hs => streams_disjoint hbuilt (Ne.symm hij) hb hb' hs
      refine ⟨account, ?_,
        Recounted.writeTo_other hrecounts hnodup hdisjoint value attributes draw⟩
      rw [Table.find?_modify, hother]
      exact haccount

/-- A measurement is entered under the address of the instrument that took it. -/
theorem Booked.record (h : Booked l sys) (hcoherent : Coherent sys) (handle : Nat) (value : α)
    (attributes : List Attribute) (draw : Nat → Nat) :
    Booked (l.enter handle value attributes) (sys.record handle value attributes draw) := by
  rcases h.mirrors.cases_handle handle with ⟨hl, hr⟩ | ⟨a, i, hl, hr, hnames⟩
  · have hr : sys.handles.find? handle = none := hr
    simpa [Ledger.enter, hl, System.record, instrument?, hr] using h
  · have hr : sys.handles.find? handle = some i := hr
    obtain ⟨b, hb, hab⟩ := names_iff.mp hnames
    obtain ⟨-, hkey⟩ := Address.beq_iff.mp hab
    have hidentity : a.key.identity = b.key.identity := (InstrumentKey.beq_iff.mp hkey).2
    have hinstrument : sys.instrument? handle = some (i, b) := by simp [instrument?, hr, hb]
    simp only [Ledger.enter, hl, System.record, hinstrument, hidentity]
    cases hobjection : objection b.key value with
    | some e =>
      have hrefused : ¬ Ledger.accepts b.key.identity.kind value = true := by
        rw [← objection_eq_none_iff, hobjection]
        simp
      rw [if_neg hrefused]
      exact h.descend_of_roster_eq (.write sys _) rfl
    | none =>
      rw [if_pos ((objection_eq_none_iff b.key value).mp hobjection)]
      obtain ⟨x, hx, halive⟩ := isAlive_iff.mp (hcoherent.isAlive_of_handle hr)
      obtain rfl := Option.some.inj (hb.symm.trans hx)
      exact h.writeTo hcoherent hb halive hab value (KeyMap.ofList attributes) draw

end System

end Metering
