import ScriptHost.Proofs.Calendar
import ScriptHost.Proofs.Storage.Contents
import ScriptHost.Service.Tasks

/-!
# Captured metrics are kept for a while

Of the metrics captured in a run of a service, the storage keeps the last capture of each of the most
recent microseconds, as many as the retention says: `Service.captures_retained`. The path of a capture
ends with the stamp of its instant, so a listing has the captures in order of time, and the first ones
of it are the oldest.
-/

namespace ScriptHost

/-! ## Paths of captures -/

namespace Service

open Calendar (parts stamp)

/-- Captures are listed in the order of their microseconds. -/
theorem capturePath_lt_iff {a b : Nat} (ha : (parts a).1.year ≤ 9999)
    (hb : (parts b).1.year ≤ 9999) : capturePath a < capturePath b ↔ a / 1000 < b / 1000 := by
  rw [← Calendar.stamp_lt_iff ha hb, String.lt_iff, String.lt_iff, capturePath, capturePath]
  simp only [String.toList_append, Calendar.append_lt_append_iff, List.lt_irrefl, false_or,
    true_and]

/-- Captures have the same path exactly when their microseconds are the same. -/
theorem capturePath_inj {a b : Nat} (ha : (parts a).1.year ≤ 9999)
    (hb : (parts b).1.year ≤ 9999) : capturePath a = capturePath b ↔ a / 1000 = b / 1000 := by
  rw [← Calendar.stamp_inj ha hb, capturePath, capturePath, String.append_right_inj]

/-- A stamp can be a name of a file. -/
theorem isSegment_stamp (instant : Nat) : IsSegment (stamp instant) := by
  have hmem : 'T' ∈ (stamp instant).toList := by
    rw [Calendar.toList_stamp]
    simp
  have hne : ∀ text : String, 'T' ∉ text.toList → stamp instant ≠ text := by
    rintro _ hnot rfl
    exact hnot hmem
  refine ⟨hne "" (by decide), hne "." (by decide), hne ".." (by decide), fun c hc => ?_⟩
  have hplain : c ≠ '/' ∧ c ≠ '\\' := by
    have hstamp := Calendar.mem_stamp hc
    constructor
    · rintro rfl
      exact absurd hstamp (by decide)
    · rintro rfl
      exact absurd hstamp (by decide)
  simp [isSeparator, hplain.1, hplain.2]

/-- The path of a capture is in its normal spelling. -/
theorem normalize?_capturePath (instant : Nat) :
    ResourcePath.normalize? (capturePath instant) = some (capturePath instant) := by
  have hvalid : ∀ s ∈ ["metrics", stamp instant], IsSegment s := by
    intro s hs
    simp only [List.mem_cons, List.not_mem_nil, or_false] at hs
    rcases hs with rfl | rfl
    · decide
    · exact isSegment_stamp instant
  have htext : ResourcePath.text ⟨["metrics", stamp instant], by simp, hvalid⟩ =
      capturePath instant := by
    rw [← String.toList_inj, ResourcePath.text, ResourcePath.toList_join]
    simp [capturePath, metricsPath]
  rw [← htext]
  exact ResourcePath.normalize?_text _

/-- Captures lie below the path of the metrics. -/
theorem isAtOrBelow_capturePath (instant : Nat) :
    isAtOrBelow (capturePath instant) metricsPath = true := by
  rw [Database.isAtOrBelow_iff (by decide)]
  exact .inr ⟨(stamp instant).toList, by simp [capturePath]⟩

end Service

/-! ## Captures that are kept -/

/-- A capture of metrics: its instant, and what was captured. -/
structure Capture where
  instant : Nat
  body : ByteArray

namespace Capture

/-- The microsecond of a capture. -/
def micros (c : Capture) : Nat :=
  c.instant / 1000

/-- What the storage has of a capture: its path and its data. -/
def entry (c : Capture) : String × ByteArray :=
  (Service.capturePath c.instant, c.body)

end Capture

/-- The last capture of every microsecond, of captures and with captures in the order from the last to
the first. -/
def lastCaptures : List Capture → List Capture
  | [] => []
  | c :: earlier => c :: (lastCaptures earlier).filter fun d => d.micros != c.micros

/-- The captures that are kept: the last ones of the most recent microseconds. -/
def keptCaptures (retention : Nat) (captures : List Capture) : List Capture :=
  (lastCaptures captures).take retention

section

variable {captures : List Capture} {c : Capture}

theorem keptCaptures_nil (retention : Nat) : keptCaptures retention [] = [] :=
  List.take_nil

theorem lastCaptures_subset (captures : List Capture) : lastCaptures captures ⊆ captures := by
  induction captures with
  | nil => exact List.Subset.refl []
  | cons c earlier ih =>
      refine List.cons_subset_cons c fun d hd => ih ?_
      exact List.mem_of_mem_filter hd

theorem keptCaptures_subset (retention : Nat) (captures : List Capture) :
    keptCaptures retention captures ⊆ captures :=
  fun _ hd => lastCaptures_subset captures (List.mem_of_mem_take hd)

/-- The last captures are of different microseconds, the most recent ones first. -/
theorem lastCaptures_sorted
    (h : captures.Pairwise fun later earlier => earlier.instant ≤ later.instant) :
    (lastCaptures captures).Pairwise fun later earlier => earlier.micros < later.micros := by
  induction captures with
  | nil => exact .nil
  | cons c earlier ih =>
      rw [List.pairwise_cons] at h
      rw [lastCaptures, List.pairwise_cons]
      refine ⟨fun d hd => ?_, (ih h.2).filter _⟩
      obtain ⟨hmem, hne⟩ := List.mem_filter.mp hd
      have hle : d.micros ≤ c.micros :=
        Nat.div_le_div_right (h.1 d (lastCaptures_subset earlier hmem))
      exact Nat.lt_of_le_of_ne hle (by simpa using hne)

/-- A new capture comes first, in the place of one of the same microsecond, and what is too much is
left out at the end. -/
theorem keptCaptures_cons (retention : Nat)
    (h : (c :: captures).Pairwise fun later earlier => earlier.instant ≤ later.instant) :
    keptCaptures retention (c :: captures) =
      (c :: (keptCaptures retention captures).filter fun d => d.micros != c.micros).take
        retention := by
  rw [List.pairwise_cons] at h
  have hsorted := lastCaptures_sorted h.2
  have hle : ∀ d ∈ lastCaptures captures, d.micros ≤ c.micros := fun d hd =>
    Nat.div_le_div_right (h.1 d (lastCaptures_subset captures hd))
  rw [keptCaptures, keptCaptures, lastCaptures]
  generalize lastCaptures captures = last at *
  cases retention with
  | zero => rfl
  | succ n =>
      rw [List.take_succ_cons, List.take_succ_cons]
      cases last with
      | nil => rfl
      | cons d last =>
          -- Only the most recent capture can be of the microsecond of the new one.
          have hlast : ∀ e ∈ last, (e.micros != c.micros) = true := by
            intro e he
            have hlt := List.rel_of_pairwise_cons hsorted he
            have hd := hle d List.mem_cons_self
            simp only [bne_iff_ne]
            omega
          have htaken : ∀ e ∈ last.take n, (e.micros != c.micros) = true := fun e he =>
            hlast e (List.mem_of_mem_take he)
          rw [List.take_succ_cons, List.filter_cons, List.filter_cons,
            List.filter_eq_self.mpr hlast, List.filter_eq_self.mpr htaken]
          split
          · cases n with
            | zero => rfl
            | succ n => simp [List.take_take]
          · rw [List.take_take, Nat.min_self]

end

/-! ## Runs of a service -/

namespace Service

/-- What a service would capture at present. -/
def capture (s : Service) : Capture :=
  ⟨s.world.host.clock, (s.snapshot true).render.toUTF8⟩

/-- The service with another storage. -/
def withStorage (s : Service) (storage : Storage) : Service :=
  { s with world := { s.world with storage } }

/-- A service has run for a while, and the task that keeps some captures has made captures, given from
the last to the first. In between, the storage was called where no captures are, and anything else
happened but that the storage changed or the clock went back. -/
inductive Captured (retention : Nat) (start : Service) : List Capture → Service → Prop
  | start : Captured retention start [] start
  | captured {captures : List Capture} {s after : Service} :
      Captured retention start captures s →
      s.runTask (.captureMetrics retention) = (none, after) →
      Captured retention start (s.capture :: captures) after
  | failed {captures : List Capture} {s after : Service} {fault : TaskFault} :
      Captured retention start captures s →
      s.runTask (.captureMetrics retention) = (some fault, after) →
      Captured retention start captures after
  | called {captures : List Capture} {s : Service} {c : StorageCall} :
      Captured retention start captures s → c.Spares metricsPath →
      Captured retention start captures (s.withStorage (s.world.storage.call c).2)
  | passed {captures : List Capture} {s after : Service} :
      Captured retention start captures s → after.world.storage = s.world.storage →
      s.world.host.clock ≤ after.world.host.clock → Captured retention start captures after

/-- The storage of a service has the captures that are to be kept, and the clock is past all of them. -/
structure Keeps (retention : Nat) (captures : List Capture) (s : Service) : Prop where
  holds : s.world.storage.backend.HoldsBelow metricsPath
    ((keptCaptures retention captures).reverse.map Capture.entry)
  ordered : captures.Pairwise fun later earlier => earlier.instant ≤ later.instant
  passed : ∀ c ∈ captures, c.instant ≤ s.world.host.clock

variable {retention : Nat} {captures : List Capture} {s : Service}

/-- The storage is not among what is captured. -/
theorem capture_withStorage (s : Service) (storage : Storage) :
    (s.withStorage storage).capture = s.capture :=
  rfl

/-- A capture is stored, all captures are listed, and the first ones are deleted. -/
theorem captureMetrics_eq_ok {between after : Storage} {rows : List (String × Nat)}
    (hput : s.world.storage.put (capturePath s.world.host.clock) s.capture.body = .ok between)
    (hlist : between.list metricsPath = .ok rows)
    (hprune : prune between (rows.map (·.1)) retention = .ok after) :
    s.captureMetrics retention = .ok (s.withStorage after) := by
  rw [capture] at hput
  rw [captureMetrics, hput]
  simp only [bind, Except.bind, hlist, hprune]
  rfl

/-- With the present capture in its place at the end, the rows are those of the new captures. -/
theorem Keeps.put (h : s.Keeps retention captures)
    (hyear : (Calendar.parts s.world.host.clock).1.year ≤ 9999) :
    (s.world.storage.backend.put (capturePath s.world.host.clock) s.capture.body).HoldsBelow metricsPath
      ((s.capture :: (keptCaptures retention captures).filter
        fun d => d.micros != s.capture.micros).reverse.map Capture.entry) := by
  have hyears : ∀ d ∈ keptCaptures retention captures, (Calendar.parts d.instant).1.year ≤ 9999 :=
    fun d hd => (Calendar.year_mono (h.passed d (keptCaptures_subset retention captures hd))).trans hyear
  have hlast : ∀ row ∈ (keptCaptures retention captures).reverse.map Capture.entry,
      row.1 ≤ capturePath s.world.host.clock := by
    intro row hrow
    obtain ⟨d, hd, rfl⟩ := List.mem_map.mp hrow
    rw [List.mem_reverse] at hd
    refine String.not_lt.mp fun hlt => ?_
    have hle := Nat.div_le_div_right (c := 1000) (h.passed d (keptCaptures_subset retention captures hd))
    exact Nat.not_lt.mpr hle ((capturePath_lt_iff hyear (hyears d hd)).mp hlt)
  have hrows : ((keptCaptures retention captures).reverse.map Capture.entry).filter
      (fun row => row.1 != capturePath s.world.host.clock) =
      ((keptCaptures retention captures).filter fun d => d.micros != s.capture.micros).reverse.map
        Capture.entry := by
    have hsame : ∀ d ∈ keptCaptures retention captures,
        ((fun row : String × ByteArray => row.1 != capturePath s.world.host.clock) ∘ Capture.entry) d =
          (d.micros != s.capture.micros) := by
      intro d hd
      have hinj := capturePath_inj (hyears d hd) hyear
      rw [Bool.eq_iff_iff, Function.comp_apply, bne_iff_ne, bne_iff_ne, Capture.entry, Capture.micros,
        Capture.micros, capture]
      exact not_congr hinj
    rw [List.filter_map, List.filter_reverse, List.filter_congr hsame]
  have hput := h.holds.put_last (isAtOrBelow_capturePath s.world.host.clock) hlast s.capture.body
  rw [hrows] at hput
  rw [List.reverse_cons, List.map_append]
  exact hput

/-- Pruning leaves the most recent captures, as many as the retention says, and all that is elsewhere. -/
theorem prune_ok {storage : Storage} (retention : Nat) {captures : List Capture}
    (h : storage.backend.HoldsBelow metricsPath (captures.reverse.map Capture.entry)) :
    ∃ after, prune storage ((captures.reverse.map Capture.entry).map (·.1)) retention = .ok after ∧
      after.maxSize = storage.maxSize ∧
      after.backend.HoldsBelow metricsPath ((captures.take retention).reverse.map Capture.entry) ∧
      storage.SameElsewhere after metricsPath := by
  -- The first rows are those of the captures that are too many.
  have hsplit : captures.reverse.map Capture.entry =
      (captures.reverse.map Capture.entry).take (captures.length - retention) ++
        (captures.take retention).reverse.map Capture.entry := by
    rw [List.reverse_take, List.map_drop, List.take_append_drop]
  have hnormal : ∀ row ∈ (captures.reverse.map Capture.entry).take (captures.length - retention),
      ResourcePath.normalize? row.1 = some row.1 := by
    intro row hrow
    obtain ⟨c, -, rfl⟩ := List.mem_map.mp (List.mem_of_mem_take hrow)
    exact normalize?_capturePath c.instant
  rw [hsplit] at h
  obtain ⟨after, hdelete, hafter⟩ := Storage.delete_rows h hnormal
  refine ⟨after, ?_, hafter⟩
  rw [prune, List.length_map, List.length_map, List.length_reverse, ← List.map_take]
  exact hdelete

/-- A capture that is not too long is kept, the oldest ones are deleted as far as there are too many,
and nothing else changes. -/
theorem Keeps.captureMetrics (h : s.Keeps retention captures)
    (hyear : (Calendar.parts s.world.host.clock).1.year ≤ 9999)
    (hsize : s.capture.body.size ≤ s.world.storage.maxSize) :
    ∃ storage, s.captureMetrics retention = .ok (s.withStorage storage) ∧
      (s.withStorage storage).Keeps retention (s.capture :: captures) ∧
      s.world.storage.SameElsewhere storage metricsPath ∧
      storage.maxSize = s.world.storage.maxSize := by
  have hordered : (s.capture :: captures).Pairwise fun later earlier =>
      earlier.instant ≤ later.instant := List.pairwise_cons.mpr ⟨h.passed, h.ordered⟩
  have hpassed : ∀ c ∈ s.capture :: captures, c.instant ≤ s.world.host.clock :=
    List.forall_mem_cons.mpr ⟨Nat.le_refl _, h.passed⟩
  obtain ⟨between, hbetween⟩ : ∃ between : Storage, between = { s.world.storage with
      backend := s.world.storage.backend.put (capturePath s.world.host.clock) s.capture.body } :=
    ⟨_, rfl⟩
  have hput := Storage.put_ok (normalize?_capturePath s.world.host.clock) hsize
  rw [← hbetween] at hput
  have hholds := h.put hyear
  rw [show s.world.storage.backend.put (capturePath s.world.host.clock) s.capture.body =
    between.backend by rw [hbetween]] at hholds
  have hlist := (Storage.hasBelow_of_holds hholds rfl (by decide)).list
  obtain ⟨after, hprune, hmax, hafter, hsame⟩ := prune_ok retention hholds
  rw [← keptCaptures_cons retention hordered] at hafter
  have hbelow := isAtOrBelow_capturePath s.world.host.clock
  refine ⟨after, captureMetrics_eq_ok hput hlist ?_, ⟨hafter, hordered, hpassed⟩,
    .trans (Storage.sameElsewhere_of_get? hbelow fun other hne => ?_) hsame, ?_⟩
  · rw [List.map_map]
    exact hprune
  · rw [hbetween, StorageBackend.get?_put, if_neg hne]
  · rw [hmax, hbetween]

/-- A capture that is too long is refused. -/
theorem captureMetrics_oversize (hsize : s.world.storage.maxSize < s.capture.body.size) :
    s.captureMetrics retention = .error (.oversize (capturePath s.world.host.clock)
      s.capture.body.size s.world.storage.maxSize) := by
  have hput := Storage.put_oversize (normalize?_capturePath s.world.host.clock) hsize
  rw [captureMetrics]
  change (s.world.storage.put (capturePath s.world.host.clock) s.capture.body >>= _) = _
  rw [hput]
  rfl

/-- A capture changes nothing but the storage. -/
theorem captureMetrics_withStorage {after : Service} (h : s.captureMetrics retention = .ok after) :
    ∃ storage, after = s.withStorage storage := by
  rw [Service.captureMetrics] at h
  simp only [bind, Except.bind] at h
  split at h
  · cases h
  · split at h
    · cases h
    · split at h
      · cases h
      · rename_i storage _
        exact ⟨storage, (Except.ok.inj h).symm⟩

/-- The task has nothing to report when the capture succeeds. -/
theorem runTask_eq_of_ok {after : Service} (h : s.captureMetrics retention = .ok after) :
    s.runTask (.captureMetrics retention) = (none, after) := by
  unfold runTask
  dsimp only
  rw [h]

/-- The task reports why the capture fails, and changes nothing then. -/
theorem runTask_eq_of_error {fault : StorageFault} (h : s.captureMetrics retention = .error fault) :
    s.runTask (.captureMetrics retention) = (some (.failed "metrics-capture" fault.message), s) := by
  unfold runTask
  dsimp only
  rw [h, ServiceTask.name]

/-- The captures that are to be kept are kept by everything that happens to a service. -/
theorem Captured.keeps {start : Service} (hkeyed : start.world.storage.backend.Keyed)
    (hstart : start.world.storage.HasBelow metricsPath [])
    (hrun : Captured retention start captures s)
    (hyear : (Calendar.parts s.world.host.clock).1.year ≤ 9999) : s.Keeps retention captures := by
  induction hrun with
  | start =>
      refine ⟨?_, .nil, nofun⟩
      rw [keptCaptures_nil]
      exact hstart.holds_nil hkeyed rfl (by decide)
  | @captured captures s after hrun htask ih =>
      cases hcapture : s.captureMetrics retention with
      | error fault =>
          rw [runTask_eq_of_error hcapture] at htask
          cases htask
      | ok captured =>
          rw [runTask_eq_of_ok hcapture, Prod.mk.injEq] at htask
          obtain rfl := htask.2
          obtain ⟨storage, rfl⟩ := captureMetrics_withStorage hcapture
          rcases Nat.lt_or_ge s.world.storage.maxSize s.capture.body.size with hover | hsize
          · rw [captureMetrics_oversize hover] at hcapture
            cases hcapture
          · obtain ⟨kept, hkept, hafter, -, -⟩ := (ih hyear).captureMetrics hyear hsize
            rw [hcapture, Except.ok.injEq] at hkept
            rw [hkept]
            exact hafter
  | @failed captures s after fault hrun htask ih =>
      cases hcapture : s.captureMetrics retention with
      | error fault =>
          rw [runTask_eq_of_error hcapture, Prod.mk.injEq] at htask
          obtain rfl := htask.2
          exact ih hyear
      | ok captured =>
          rw [runTask_eq_of_ok hcapture] at htask
          cases htask
  | called hrun hspares ih =>
      have hkeeps := ih hyear
      exact ⟨Storage.call_spares hkeeps.holds hspares, hkeeps.ordered, hkeeps.passed⟩
  | passed hrun hstorage hclock ih =>
      have hkeeps := ih ((Calendar.year_mono hclock).trans hyear)
      refine ⟨?_, hkeeps.ordered, fun c hc => (hkeeps.passed c hc).trans hclock⟩
      rw [hstorage]
      exact hkeeps.holds

/-- From a storage with nothing below the path of the metrics on, and as long as years have four digits,
what is there are the last captures of the most recent microseconds, as many as the retention says. The
next run of the task adds the present capture to them and changes nothing elsewhere, unless the capture
is too long: then it fails and changes nothing at all. -/
theorem captures_retained {start : Service} (hkeyed : start.world.storage.backend.Keyed)
    (hstart : start.world.storage.HasBelow metricsPath [])
    (hrun : Captured retention start captures s)
    (hyear : (Calendar.parts s.world.host.clock).1.year ≤ 9999) :
    s.world.storage.HasBelow metricsPath
      ((keptCaptures retention captures).reverse.map Capture.entry) ∧
    (s.capture.body.size ≤ s.world.storage.maxSize → ∃ storage,
      s.runTask (.captureMetrics retention) = (none, s.withStorage storage) ∧
      storage.HasBelow metricsPath
        ((keptCaptures retention (s.capture :: captures)).reverse.map Capture.entry) ∧
      s.world.storage.SameElsewhere storage metricsPath ∧
      storage.maxSize = s.world.storage.maxSize) ∧
    (s.world.storage.maxSize < s.capture.body.size →
      s.runTask (.captureMetrics retention) = (some (.failed "metrics-capture"
        (StorageFault.oversize (capturePath s.world.host.clock) s.capture.body.size
          s.world.storage.maxSize).message), s)) := by
  have hkeeps := hrun.keeps hkeyed hstart hyear
  refine ⟨Storage.hasBelow_of_holds hkeeps.holds rfl (by decide), fun hsize => ?_, fun hover => ?_⟩
  · obtain ⟨storage, hcapture, hafter, hsame, hmax⟩ := hkeeps.captureMetrics hyear hsize
    refine ⟨storage, ?_, Storage.hasBelow_of_holds hafter.holds rfl (by decide), hsame, hmax⟩
    exact runTask_eq_of_ok hcapture
  · exact runTask_eq_of_error (captureMetrics_oversize hover)

/-- A service at the beginning of year 0 that has not done anything yet. -/
def fresh : Service :=
  ⟨.empty, .new ⟨⟨.empty, []⟩, .empty, 0, 0⟩ (.memory .empty) .inMemory⟩

/-- The service some nanoseconds later. -/
def later (s : Service) (nanos : Nat) : Service :=
  { s with world := { s.world with host := s.world.host.later nanos } }

/-- The captures of a service without engines are short. -/
theorem size_fresh_capture :
    ∀ nanos ∈ [0, 1000000], (fresh.later nanos).capture.body.size ≤ 1000 := by
  have hquote : ∀ s, Json.quote s =
      s.toList.foldl (fun text c => text ++ Json.escapeChar c) "\"" ++ "\"" := fun s => by
    rw [Json.quote, String.foldl_eq_foldl_toList]
  simp only [capture, fresh, later, snapshot, Metrics.snapshot, CacheCounters.toJson,
    Json.Value.render, Json.Value.renderMembers, hquote, if_true, Option.toList_some, List.map_cons,
    List.map_nil, List.cons_append, List.nil_append]
  decide +kernel

/-- Of two captures a millisecond apart the second one is kept when there is to be one. -/
theorem fresh_captures : ∃ first second : Storage,
    fresh.runTask (.captureMetrics 1) = (none, fresh.withStorage first) ∧
    ((fresh.later 1000000).withStorage first).runTask (.captureMetrics 1) =
      (none, (fresh.later 1000000).withStorage second) ∧
    second.HasBelow metricsPath
      [("/metrics/00000101T000000.001000Z", (fresh.later 1000000).capture.body)] := by
  have hkeyed : fresh.world.storage.backend.Keyed := trivial
  have hlimit : 1000 ≤ fresh.world.storage.maxSize := by decide
  have hstart : fresh.world.storage.HasBelow metricsPath [] :=
    Storage.hasBelow_of_holds (.of_list_eq_nil hkeyed (by decide) rfl) rfl (by decide)
  have hrun : Captured 1 fresh [] fresh := .start
  obtain ⟨-, hfirst, -⟩ := captures_retained hkeyed hstart hrun (by decide)
  obtain ⟨first, htask, -, -, hmax⟩ :=
    hfirst ((size_fresh_capture 0 (by decide)).trans hlimit)
  obtain ⟨s, hs⟩ : ∃ s, s = (fresh.later 1000000).withStorage first := ⟨_, rfl⟩
  have hclock : s.world.host.clock = 1000000 := by
    rw [hs]
    rfl
  have hlater : Captured 1 fresh [fresh.capture] s := by
    refine .passed (.captured hrun htask) ?_ ?_
    · rw [hs]
      rfl
    · rw [hclock]
      exact Nat.zero_le _
  have hcapture : s.capture = (fresh.later 1000000).capture := by
    rw [hs, capture_withStorage]
  have hyear : (Calendar.parts s.world.host.clock).1.year ≤ 9999 := by
    rw [hclock]
    decide
  obtain ⟨-, hsecond, -⟩ := captures_retained hkeyed hstart hlater hyear
  have hsize : s.capture.body.size ≤ s.world.storage.maxSize := by
    have hmax' : s.world.storage.maxSize = fresh.world.storage.maxSize := by
      rw [hs]
      exact hmax
    rw [hcapture, hmax']
    exact (size_fresh_capture 1000000 (by decide)).trans hlimit
  obtain ⟨second, htask', hkept, -⟩ := hsecond hsize
  have hpath : capturePath 1000000 = "/metrics/00000101T000000.001000Z" := by decide +kernel
  rw [keptCaptures, lastCaptures, List.take_succ_cons, List.take_zero, List.reverse_singleton,
    List.map_singleton, Capture.entry, hcapture] at hkept
  rw [hs] at htask'
  refine ⟨first, second, htask, htask', ?_⟩
  rw [← hpath]
  exact hkept

end Service

end ScriptHost
