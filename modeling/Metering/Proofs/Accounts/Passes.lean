import Metering.Proofs.Accounts.Delivery

/-!
# Passes and What They Deliver

A pass of an open reader delivers one batch, which is faithful to any ledger that is booked with the
system. A provider's flush and shutdown walk over its readers: a flush collects those that are open,
and a shutdown does the same but closes each, so that it collects none twice.
-/

namespace Metering.System

variable {α : Type} {sys sys' sys'' : System α} {l : Ledger α} {r : Nat} {reader : Reader α}

/-- Of some readers, those that are open. -/
def openAmong (sys : System α) (readers : List Nat) : List Nat := readers.filter fun r => !sys.isClosed r

/-- The readers of a provider that is not closed. -/
def readersOf (sys : System α) (p : Nat) : List Nat :=
  match sys.providers[p]? with
  | none => []
  | some provider => if provider.closed then [] else provider.readers

/-! ## Open readers -/

theorem isClosed_eq_false_iff :
    sys.isClosed r = false ↔ ∃ reader, sys.readers[r]? = some reader ∧ reader.closed = false := by
  unfold isClosed
  cases sys.readers[r]? <;> simp

theorem isClosed_congr (h : sys'.frame = sys.frame) (r : Nat) : sys'.isClosed r = sys.isClosed r := by
  have houtline (sys : System α) :
      sys.isClosed r = ((sys.readers[r]?.map (·.outline)).map (·.2.2)).getD true := by
    unfold isClosed
    cases sys.readers[r]? <;> rfl
  rw [houtline, houtline, map_getElem?_of_map_eq (congrArg (·.2.2.1) h)]

theorem isClosed_closeReader (sys : System α) (r q : Nat) :
    (sys.modifyReader r fun reader => { reader with closed := true, streams := Table.empty }).isClosed q =
      (sys.isClosed q || q == r) := by
  unfold isClosed modifyReader
  by_cases hq : r = q
  · subst hq
    rw [List.getElem?_modify_eq]
    cases sys.readers[r]? <;> simp
  · have hne : (q == r) = false := by simpa using fun h => hq h.symm
    rw [List.getElem?_modify_ne _ _ hq, hne, Bool.or_false]

theorem openAmong_singleton (h : sys.isClosed r = false) : sys.openAmong [r] = [r] := by
  simp [openAmong, h]

theorem openAmong_singleton_of_closed (h : sys.isClosed r = true) : sys.openAmong [r] = [] := by
  simp [openAmong, h]

theorem openAmong_cons (sys : System α) (r : Nat) (rest : List Nat) :
    sys.openAmong (r :: rest) = sys.openAmong [r] ++ sys.openAmong rest :=
  List.filter_append (p := fun r => !sys.isClosed r) [r] rest

/-! ## The journal of a pass -/

variable [Quantity α]

theorem journal_exportPass (sys : System α) (r : Nat) (reader : Reader α)
    (performances : List (List (Call × Performance α))) :
    ∃ entries, (sys.exportPass r reader performances).2.journal = sys.journal ++ entries ∧
      deliveries entries =
        [(r, reader.batch (observed (performances.map observationPass)) sys.now)] := by
  refine ⟨_, rfl, ?_⟩
  -- Failed calls, a refused batch and their counts are events, not deliveries.
  rw [deliveries_append, deliveries_append, deliveries_append,
    ← List.map_flatMap, deliveries_events]
  split <;> split <;> rfl

section Passes

variable {σ : Type} (respond : Responder σ α) (known : σ)

theorem journal_pass (hr : sys.readers[r]? = some reader) :
    ∃ entries observed, (sys.pass respond known r).2.2.journal = sys.journal ++ entries ∧
      deliveries entries = [(r, reader.batch observed sys.now)] := by
  simp only [pass, hr]
  obtain ⟨entries, hjournal, hentries⟩ := journal_exportPass sys r reader
    (callProviders respond known (sys.calls reader)).1
  exact ⟨entries, _, hjournal, hentries⟩

/-! ## Faithful collections -/

/-- Between two systems, some readers were handed one batch each, in order, all of them faithful. -/
def Delivers (l : Ledger α) (sys sys' : System α) (readers : List Nat) : Prop :=
  ∃ entries, sys'.journal = sys.journal ++ entries ∧ (deliveries entries).map (·.1) = readers ∧
    ∀ d ∈ deliveries entries, Faithful l sys d.1 d.2

theorem Delivers.refl (l : Ledger α) (sys : System α) : Delivers l sys sys [] :=
  ⟨[], (List.append_nil _).symm, rfl, fun d hd => by cases hd⟩

theorem Delivers.trans {xs ys : List Nat} (h : Delivers l sys sys' xs)
    (htrails : Trails sys sys') (k : Delivers l sys' sys'' ys) : Delivers l sys sys'' (xs ++ ys) := by
  obtain ⟨entries, hjournal, hreaders, hfaithful⟩ := h
  obtain ⟨entries', hjournal', hreaders', hfaithful'⟩ := k
  -- Later batches are faithful to the system in between, and so to the one it trails.
  refine ⟨entries ++ entries', ?_, ?_, ?_⟩
  · rw [hjournal', hjournal, List.append_assoc]
  · rw [deliveries_append, List.map_append, hreaders, hreaders']
  · intro d hd
    rw [deliveries_append] at hd
    rcases List.mem_append.mp hd with hd | hd
    · exact hfaithful d hd
    · exact (hfaithful' d hd).of_trails htrails

/-- What is written besides deliveries does not matter. -/
theorem Delivers.of_quiet {readers : List Nat} (h : Delivers l sys sys' readers)
    (quiet : List (JournalEntry α)) (hjournal : sys''.journal = sys'.journal ++ quiet)
    (hquiet : deliveries quiet = []) : Delivers l sys sys'' readers := by
  obtain ⟨entries, hentries, hreaders, hfaithful⟩ := h
  have hsame : deliveries (entries ++ quiet) = deliveries entries := by
    rw [deliveries_append, hquiet, List.append_nil]
  refine ⟨entries ++ quiet, ?_, ?_, ?_⟩
  · rw [hjournal, hentries, List.append_assoc]
  · rw [hsame, hreaders]
  · rw [hsame]
    exact hfaithful

theorem Booked.delivers_pass (h : Booked l sys) (hcoherent : Coherent sys)
    (hopen : sys.isClosed r = false) : Delivers l sys (sys.pass respond known r).2.2 [r] := by
  obtain ⟨reader, hr, hopen⟩ := isClosed_eq_false_iff.mp hopen
  obtain ⟨entries, observed, hjournal, hentries⟩ := journal_pass respond known hr
  refine ⟨entries, hjournal, by rw [hentries]; rfl, ?_⟩
  intro d hd
  rw [hentries] at hd
  obtain rfl := List.mem_singleton.mp hd
  exact h.faithful hcoherent hr hopen observed

/-- The last pass of a reader is made with the streams that it had when it was open. -/
theorem Booked.delivers_lastPass (h : Booked l sys) (hcoherent : Coherent sys)
    (hopen : sys.isClosed r = false) :
    Delivers l sys
      ((sys.modifyReader r fun reader => { reader with closed := true }).pass respond known r).2.2
      [r] := by
  obtain ⟨reader, hr, hopen⟩ := isClosed_eq_false_iff.mp hopen
  have hr' : (sys.modifyReader r fun reader => { reader with closed := true }).readers[r]? =
      some { reader with closed := true } := getElem?_modify_of_some _ hr
  obtain ⟨entries, observed, hjournal, hentries⟩ := journal_pass respond known hr'
  refine ⟨entries, hjournal, by rw [hentries]; rfl, ?_⟩
  intro d hd
  rw [hentries] at hd
  obtain rfl := List.mem_singleton.mp hd
  exact h.faithful hcoherent hr hopen observed

theorem Booked.delivers_collect (h : Booked l sys) (hcoherent : Coherent sys) (r : Nat) :
    Delivers l sys (sys.collect respond known r).2.2 (sys.openAmong [r]) := by
  unfold System.collect
  cases hclosed : sys.isClosed r with
  | true =>
    rw [openAmong_singleton_of_closed hclosed]
    exact .refl l sys
  | false =>
    rw [openAmong_singleton hclosed]
    exact h.delivers_pass respond known hcoherent hclosed

theorem Booked.delivers_flushReader (h : Booked l sys) (hcoherent : Coherent sys) (r : Nat) :
    Delivers l sys (sys.flushReader respond known r).2.2 (sys.openAmong [r]) := by
  unfold System.flushReader
  cases hclosed : sys.isClosed r with
  | true =>
    rw [openAmong_singleton_of_closed hclosed]
    exact .refl l sys
  | false =>
    rw [openAmong_singleton hclosed]
    have hpass := h.delivers_pass respond known hcoherent hclosed
    exact hpass.of_quiet [.call r .flush] rfl rfl

theorem Booked.delivers_shutdownReader (h : Booked l sys) (hcoherent : Coherent sys) (r : Nat) :
    Delivers l sys (sys.shutdownReader respond known r).2.2 (sys.openAmong [r]) := by
  unfold System.shutdownReader
  cases hclosed : sys.isClosed r with
  | true =>
    rw [openAmong_singleton_of_closed hclosed]
    exact .refl l sys
  | false =>
    rw [openAmong_singleton hclosed]
    have hpass := h.delivers_lastPass respond known hcoherent hclosed
    exact hpass.of_quiet [.call r .shutdown] rfl rfl

/-! ## Providers -/

theorem roster_flushReader (sys : System α) (r : Nat) :
    (sys.flushReader respond known r).2.2.roster = sys.roster :=
  congrArg (·.2.2.2) (frame_flushReader respond known sys r)

/-- Flushing readers one after the other collects those that are open. -/
theorem Booked.delivers_flushReaders (h : Booked l sys) (hcoherent : Coherent sys)
    (readers : List Nat) :
    Delivers l sys (eachReader (flushReader respond) known sys readers).2.2
      (sys.openAmong readers) := by
  induction readers generalizing sys known with
  | nil => exact .refl l sys
  | cons r rest ih =>
    let next := (sys.flushReader respond known r).2.2
    have hframe : next.frame = sys.frame := frame_flushReader respond known sys r
    have hdescends : Descends sys next := .flushReader respond known sys r
    have hrest := ih (sys.flushReader respond known r).2.1
      (h.descend_of_roster_eq hdescends (congrArg (·.2.2.2) hframe)) (hcoherent.of_frame_eq hframe)
    have hopen : next.openAmong rest = sys.openAmong rest := by
      simp only [openAmong, isClosed_congr hframe]
    rw [hopen] at hrest
    rw [openAmong_cons]
    exact (h.delivers_flushReader respond known hcoherent r).trans
      (.of_frame_eq hdescends (.refl sys) hframe) hrest

theorem shutdownReader_of_closed (h : sys.isClosed r = true) :
    (sys.shutdownReader respond known r).2.2 = sys := by
  simp [System.shutdownReader, h]

theorem roster_shutdownReader (sys : System α) (r : Nat) :
    (sys.shutdownReader respond known r).2.2.roster = sys.roster := by
  cases hclosed : sys.isClosed r with
  | true => rw [shutdownReader_of_closed respond known hclosed]
  | false => exact congrArg (·.2.2.2) (frame_shutdownReader respond known hclosed)

/-- Shutting readers down one after the other collects those that are open, each once. -/
theorem Booked.delivers_shutdownReaders (h : Booked l sys) (hcoherent : Coherent sys)
    (readers : List Nat) :
    Delivers l sys (eachReader (shutdownReader respond) known sys readers).2.2
      (sys.openAmong readers).eraseDups := by
  induction readers generalizing sys known with
  | nil => exact .refl l sys
  | cons r rest ih =>
    let next := (sys.shutdownReader respond known r).2.2
    have hdescends : Descends sys next := .shutdownReader respond known sys r
    have hbooked : Booked l next :=
      h.descend_of_roster_eq hdescends (roster_shutdownReader respond known sys r)
    have hrest := ih (sys.shutdownReader respond known r).2.1 hbooked
      (hcoherent.shutdownReader respond known r)
    have hfirst := h.delivers_shutdownReader respond known hcoherent r
    cases hclosed : sys.isClosed r with
    | true =>
      have hnext : next = sys := shutdownReader_of_closed respond known hclosed
      have hopen : sys.openAmong (r :: rest) = next.openAmong rest := by
        rw [openAmong_cons, openAmong_singleton_of_closed hclosed, List.nil_append, hnext]
      have htrails : Trails sys next := by
        rw [hnext]
        exact .refl sys
      rw [openAmong_singleton_of_closed hclosed] at hfirst
      rw [hopen]
      exact hfirst.trans htrails hrest
    | false =>
      have hframe : next.frame = (sys.modifyReader r fun reader =>
          { reader with closed := true, streams := Table.empty }).frame :=
        frame_shutdownReader respond known hclosed
      -- The reader is closed from here on, so it is not collected when it comes again.
      have hopen : (sys.openAmong rest).filter (fun q => !(q == r)) = next.openAmong rest := by
        simp only [openAmong, List.filter_filter, isClosed_congr hframe, isClosed_closeReader,
          Bool.not_or, Bool.and_comm]
      have htrails : Trails sys next := .of_frame_eq hdescends (.closeReader sys r) hframe
      rw [openAmong_singleton hclosed] at hfirst
      rw [openAmong_cons, openAmong_singleton hclosed, List.singleton_append, List.eraseDups_cons,
        hopen]
      exact hfirst.trans htrails hrest

/-- A flush of a provider collects its open readers, unless the provider is closed. -/
theorem Booked.delivers_flush (h : Booked l sys) (hcoherent : Coherent sys) (p : Nat) :
    Delivers l sys (sys.flush respond known p).2.2 (sys.openAmong (sys.readersOf p)) := by
  unfold System.flush readersOf
  cases sys.providers[p]? with
  | none => exact .refl l sys
  | some provider =>
    simp only
    split
    · exact .refl l sys
    · exact h.delivers_flushReaders respond known hcoherent provider.readers

theorem Booked.delivers_shutdown (h : Booked l sys) (hcoherent : Coherent sys) (p : Nat) :
    Delivers l sys (sys.shutdown respond known p).2.2
      (sys.openAmong (sys.readersOf p)).eraseDups := by
  unfold System.shutdown readersOf
  cases sys.providers[p]? with
  | none => exact .refl l sys
  | some provider =>
    simp only
    split
    · exact .refl l sys
    · let closed := sys.modifyProvider p fun provider => { provider with closed := true }
      have hframe : closed.frame = sys.frame := frame_closeProvider p
      have hdescends : Descends sys closed := .modifyProvider sys p _
      have hbooked : Booked l closed :=
        h.descend_of_roster_eq hdescends (congrArg (·.2.2.2) hframe)
      have hall := hbooked.delivers_shutdownReaders respond known (hcoherent.of_frame_eq hframe)
        provider.readers
      -- To close the provider delivers nothing.
      have hnothing : Delivers l sys closed [] :=
        (Delivers.refl l sys).of_quiet [] (List.append_nil _).symm rfl
      exact hnothing.trans (.of_frame_eq hdescends (.refl sys) hframe) hall

omit [Quantity α] in
theorem roster_eachReader {act : σ → System α → Nat → Bool × σ × System α}
    (hact : ∀ known sys r, (act known sys r).2.2.roster = sys.roster) (sys : System α)
    (readers : List Nat) : (eachReader act known sys readers).2.2.roster = sys.roster := by
  induction readers generalizing sys known with
  | nil => rfl
  | cons r rest ih => exact (ih _ _).trans (hact known sys r)

theorem roster_flush (sys : System α) (p : Nat) :
    (sys.flush respond known p).2.2.roster = sys.roster := by
  unfold System.flush
  split
  · rfl
  · split
    · rfl
    · exact roster_eachReader known (roster_flushReader respond) sys _

theorem roster_shutdown (sys : System α) (p : Nat) :
    (sys.shutdown respond known p).2.2.roster = sys.roster := by
  unfold System.shutdown
  split
  · rfl
  · split
    · rfl
    · apply (roster_eachReader known (roster_shutdownReader respond) _ _).trans
      exact congrArg (·.2.2.2) (frame_closeProvider p)

end Passes

end Metering.System
