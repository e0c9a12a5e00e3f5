import Metering.Proofs.Accounts.Entries

/-!
# Deliveries

What a collection hands to exporters, held against a ledger. A batch is faithful when it has, for
each stream of the reader in turn, the metric of that stream if there is any, and when the metric of
every cumulative stream of a synchronous instrument is what the ledger gives for the account of the
instrument.

A provider's readers are collected one after the other, so what is said of the later ones has to be
carried back to the system before the first: it trails that system, in that the readers which are
still open have the same streams.
-/

namespace Metering

variable {α : Type}

/-- The batches that were handed to exporters, each with its reader. -/
def deliveries (entries : List (JournalEntry α)) : List (Nat × List (Metric α)) :=
  entries.filterMap fun
    | .call r (.deliver batch) => some (r, batch)
    | .call _ _ | .event _ => none

theorem deliveries_append (xs ys : List (JournalEntry α)) :
    deliveries (xs ++ ys) = deliveries xs ++ deliveries ys :=
  List.filterMap_append ..

theorem deliveries_events (events : List (Event α)) : deliveries (events.map .event) = [] := by
  induction events with
  | nil => rfl
  | cons e rest ih => exact ih

/-- The settings of a synchronous stream. -/
def settingsAt (readers : List (Reader α)) (s : Nat × Nat) : Option (StreamSettings α) :=
  (streamAt readers s).bind (·.settings?)

namespace System

variable {sys sys' sys'' : System α} {l : Ledger α} {r : Nat} {reader : Reader α}

/-! ## Trailing systems -/

/-- A later system with the same instruments, in which every open reader was open with the same
streams before. -/
structure Trails (sys sys' : System α) : Prop where
  instruments : sys'.instruments = sys.instruments
  readers : ∀ (r : Nat) (reader' : Reader α), sys'.readers[r]? = some reader' →
    reader'.closed = false →
      ∃ reader, sys.readers[r]? = some reader ∧ reader.closed = false ∧
        reader'.streams.keys = reader.streams.keys
  settings : ∀ s c, settingsAt sys'.readers s = some c → settingsAt sys.readers s = some c

theorem Trails.refl (sys : System α) : Trails sys sys :=
  ⟨rfl, fun _ reader hr hopen => ⟨reader, hr, hopen, rfl⟩, fun _ _ hc => hc⟩

/-- A system in which a reader was closed and emptied. -/
theorem Trails.closeReader (sys : System α) (r : Nat) :
    Trails sys (sys.modifyReader r fun reader =>
      { reader with closed := true, streams := Table.empty }) := by
  refine ⟨rfl, ?_, ?_⟩
  · intro q reader' hq hopen
    rcases getElem?_modify_cases hq with ⟨-, reader, -, rfl⟩ | ⟨-, hq⟩
    · cases hopen
    · exact ⟨reader', hq, hopen, rfl⟩
  · intro s c hc
    have hc : (streamAt (sys.readers.modify r _) s).bind (·.settings?) = some c := hc
    rw [streamAt_modify] at hc
    split at hc
    · cases hreader : sys.readers[s.1]? <;> simp [hreader] at hc
    · exact hc

variable [Quantity α]

/-! ## Faithful batches -/

/-- What a cumulative stream with these settings is to export of an account: nothing before the
first measurement, and then one point for each series. -/
def expected (c : StreamSettings α) (account : Account α) (time : Time) : Option (Data α) :=
  if c.seriesAmong account.measurements = [] then none else some (c.reference account time)

/-- A batch lists the metrics of a reader's streams, and those of cumulative streams of living
synchronous instruments are what the ledger expects, exemplars aside, with one point for each
series. -/
def Faithful (l : Ledger α) (sys : System α) (r : Nat) (batch : List (Metric α)) : Prop :=
  ∃ reader, sys.readers[r]? = some reader ∧ reader.closed = false ∧
    ∃ metric? : Nat → Option (Metric α), batch = reader.streams.keys.filterMap metric? ∧
      ∀ (i : Nat) (b : BuiltInstrument) (n : Nat), sys.instruments[i]? = some b →
        b.lifetime.stale = false → b.observer = none → (r, n) ∈ b.streams →
          n ∈ reader.streams.keys ∧
            ∃ c, settingsAt sys.readers (r, n) = some c ∧
              (c.temporality = .cumulative →
                ∃ account, l.accounts.find? b.address = some account ∧
                  (metric? n).map (·.data.withoutExemplars) = expected c account l.now ∧
                  ∀ m, metric? n = some m →
                    m.data.length = (c.seriesAmong account.measurements).length)

/-- The metric of a cumulative stream that recounts an account is the expected one. -/
theorem metric_eq_expected {rs : RegisteredStream α} {s : SynchronousStream α} {account : Account α}
    (hsource : rs.source = .synchronous s) (h : Metering.Recounts account s)
    (ht : s.settings.temporality = .cumulative) (observed : Table Nat (Observations α)) (time : Time) :
    (rs.metric? observed time).map (·.data.withoutExemplars) = expected s.settings account time := by
  have hdata : rs.data observed time = s.data time := by simp [RegisteredStream.data, hsource]
  have hlength := h.length_data ht time
  -- There is no metric exactly when the account has no series.
  have hempty : (rs.data observed time).isEmpty =
      decide (s.settings.seriesAmong account.measurements = []) := by
    rw [hdata, Data.isEmpty, hlength]
    cases s.settings.seriesAmong account.measurements <;> simp
  unfold RegisteredStream.metric? expected
  simp only [hempty, decide_eq_true_eq]
  split
  · rfl
  · rw [Option.map_some, hdata, h.data_eq ht]

/-- The batch of an open reader is faithful, whatever callbacks observed. -/
theorem Booked.faithful (h : Booked l sys) (hcoherent : Coherent sys)
    (hr : sys.readers[r]? = some reader) (hopen : reader.closed = false)
    (observed : Table Nat (Observations α)) : Faithful l sys r (reader.batch observed sys.now) := by
  refine ⟨reader, hr, hopen,
    fun n => (reader.streams.find? n).bind (·.metric? observed sys.now), ?_, ?_⟩
  · simp only [Reader.batch, Table.values, Table.keys, List.filterMap_map]
    apply List.filterMap_congr
    intro e he
    have hfound : reader.streams.find? e.1 = some e.2 := Table.find?_eq_some_of_mem he BEq.rfl
    simp only [Function.comp_apply, hfound, Option.bind_some]
  · intro i b n hb halive hsync hn
    -- An open reader lists the streams of all that is alive.
    have hlive : (r, n) ∈ sys.liveStreams := by
      refine List.mem_flatMap.mpr ⟨b, List.mem_of_getElem? hb, ?_⟩
      simpa [BuiltInstrument.liveStreams, halive] using hn
    have hkey : n ∈ reader.streams.keys := by
      rw [hcoherent.balanced.housed.registered.listed r reader hr, hopen]
      exact mem_numbersOn.mpr hlive
    obtain ⟨rs, hrs⟩ := Option.isSome_iff_exists.mp (Table.find?_isSome_iff_mem_keys.mpr hkey)
    have hstream : streamAt sys.readers (r, n) = some rs := by simp [streamAt, hr, hrs]
    -- The stream recounts the account, so its metric is the expected one.
    obtain ⟨account, haccount, hrecounts⟩ := h.accounts i b hb halive hsync
    obtain ⟨s, hsource, hs⟩ := hrecounts (r, n) hn rs hstream
    refine ⟨hkey, s.settings, ?_, fun ht => ⟨account, haccount, ?_⟩⟩
    · simp [settingsAt, hstream, RegisteredStream.settings?, hsource]
    · simp only [hrs, Option.bind_some, h.now]
      refine ⟨metric_eq_expected hsource hs ht observed sys.now, fun m hm => ?_⟩
      rw [← hs.length_data ht sys.now]
      have hdata : rs.data observed sys.now = s.data sys.now := by
        simp [RegisteredStream.data, hsource]
      exact congrArg Data.length ((RegisteredStream.data_of_metric? hm).trans hdata)

/-! ## Faithfulness to earlier systems -/

/-- What is faithful to a trailing system is faithful to the one that it trails. -/
theorem Faithful.of_trails {batch : List (Metric α)} (htrails : Trails sys sys')
    (h : Faithful l sys' r batch) : Faithful l sys r batch := by
  obtain ⟨reader', hr', hopen', metric?, hbatch, hmetrics⟩ := h
  obtain ⟨reader, hr, hopen, hkeys⟩ := htrails.readers r reader' hr' hopen'
  refine ⟨reader, hr, hopen, metric?, hkeys ▸ hbatch, ?_⟩
  intro i b n hb halive hsync hn
  obtain ⟨hkey, c, hc, hexpected⟩ := hmetrics i b n (htrails.instruments ▸ hb) halive hsync hn
  exact ⟨hkeys ▸ hkey, c, htrails.settings _ c hc, hexpected⟩

theorem Descends.settings (h : Descends sys sys') {s : Nat × Nat} {c : StreamSettings α}
    (hc : settingsAt sys'.readers s = some c) : settingsAt sys.readers s = some c := by
  obtain ⟨rs', hrs', hsettings⟩ := Option.bind_eq_some_iff.mp hc
  obtain ⟨rs, hrs, hcontinues⟩ := h.streams s rs' hrs'
  rw [settingsAt, hrs, Option.bind_some, ← hcontinues.settings, hsettings]

/-- A system that descends from another trails it if it has the frame of a system that does. -/
theorem Trails.of_frame_eq (hdescends : Descends sys sys') (htrails : Trails sys sys'')
    (hframe : sys'.frame = sys''.frame) : Trails sys sys' := by
  have hinstruments : sys'.instruments = sys''.instruments := congrArg (·.1) hframe
  refine ⟨hinstruments.trans htrails.instruments, ?_, fun s c hc => hdescends.settings hc⟩
  intro r reader' hr' hopen'
  have houtline := map_getElem?_of_map_eq (congrArg (·.2.2.1) hframe) r
  rw [hr'] at houtline
  obtain ⟨reader'', hr'', hsame⟩ := Option.map_eq_some_iff.mp houtline.symm
  have hkeys : reader''.streams.keys = reader'.streams.keys := congrArg (·.1) hsame
  have hclosed : reader''.closed = reader'.closed := congrArg (·.2.2) hsame
  obtain ⟨reader, hr, hopen, hsame'⟩ := htrails.readers r reader'' hr'' (hclosed.trans hopen')
  exact ⟨reader, hr, hopen, hkeys.symm.trans hsame'⟩

end System

end Metering
