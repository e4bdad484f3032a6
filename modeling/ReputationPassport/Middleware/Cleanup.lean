import Mathlib.Data.Finset.Card
import ReputationPassport.Middleware.Admission

/-! # What the rate limiter keeps in memory

The cleanup goroutine is what bounds the map of visitors. A tick visits each entry once and judges
it by what the clock shows at that visit (`lookup_cleanup_of_mem`). Nothing else removes an entry,
so no client is forgotten within ten minutes of its newest request (`Retains`). After a tick the
clients in the map are those whose newest request was at most ten minutes old when they were
visited, and so there are no more of them than there were requests in the ten minutes before the
tick began. -/

namespace ReputationPassport.Middleware

open Machine Timing

variable {Key : Type} [DecidableEq Key]

section Cleanup

variable {rl : RateLimiter Key} {key : Key} {visits : List (Key × Int)} {v : Visitor}

/-- A cleanup leaves the keys it does not visit. -/
theorem lookup_cleanup_of_notMem (h : key ∉ visits.map Prod.fst) :
    (rl.cleanup visits).visitors.lookup key = rl.visitors.lookup key := by
  induction visits generalizing rl with
  | nil => rfl
  | cons p visits ih =>
      rw [List.map_cons, List.mem_cons, not_or] at h
      exact (ih h.2).trans (lookup_visit_of_ne h.1)

/-- **What a cleanup does to an entry** that it visits once: it judges the entry by the reading of
the clock at that visit. -/
theorem lookup_cleanup_of_mem {now : Int} (hnodup : (visits.map Prod.fst).Nodup)
    (h : (key, now) ∈ visits) : (rl.cleanup visits).visitors.lookup key =
      (rl.visitors.lookup key).filter fun v => now - v.lastSeen ≤ 10 * minute := by
  induction visits generalizing rl with
  | nil => exact absurd h List.not_mem_nil
  | cons p visits ih =>
      obtain ⟨hfresh, hnodup⟩ := List.nodup_cons.mp hnodup
      rcases List.mem_cons.mp h with rfl | hmem
      · exact (lookup_cleanup_of_notMem hfresh).trans lookup_visit_self
      · -- the visits before its own are to other keys
        have hne : key ≠ p.1 := by
          rintro rfl
          exact hfresh (List.mem_map.mpr ⟨_, hmem, rfl⟩)
        have hvisit : (rl.visit p.1 p.2).visitors.lookup key = rl.visitors.lookup key :=
          lookup_visit_of_ne hne
        rw [← hvisit]
        exact ih hnodup hmem

end Cleanup

/-- No reading is after the last one. -/
theorem Readings.mem_le_getLastD {clock : Int} {readings : List Int} (h : Readings clock readings)
    {r : Int} (hr : r ∈ readings) : r ≤ readings.getLastD clock := by
  induction readings generalizing clock with
  | nil => exact absurd hr List.not_mem_nil
  | cons r' readings ih =>
      have hrest : Readings r' readings := (List.pairwise_cons.mp h).2
      rw [List.getLastD_cons]
      rcases List.mem_cons.mp hr with rfl | hr
      · exact hrest.le_getLastD
      · exact ih hrest hr

/-! ## Every run -/

/-- No client is forgotten within ten minutes of its newest request. -/
def Retains (t : Traffic Key) : Prop :=
  ∀ key, t.limiter.visitors.lookup key = none →
    ∀ p ∈ (spansFor key t.log).head?, 10 * minute < t.clock - p.last

theorem retains_start (limit clock : Int) : Retains (Traffic.start limit clock : Traffic Key) := by
  intro key _ p hp
  cases hp

variable {limit : Int} {t t' : Traffic Key} {visits : List (Key × Int)}

/-- **Inversion of a tick**: it visits the keys of the map, each once, with the clock in order. -/
structure Ticks (t : Traffic Key) (visits : List (Key × Int)) (t' : Traffic Key) : Prop where
  readings : Readings t.clock (visits.map Prod.snd)
  nodup : (visits.map Prod.fst).Nodup
  visits_iff : ∀ key, key ∈ visits.map Prod.fst ↔ key ∈ t.limiter.visitors
  limiter : t'.limiter = t.limiter.cleanup visits
  clock : t'.clock = (visits.map Prod.snd).getLastD t.clock
  log : t'.log = t.log

theorem ticks_of_step (hstep : Middleware.step t (.tick visits) = some t') : Ticks t visits t' := by
  simp only [Middleware.step, Option.ite_none_right_eq_some, Option.some.injEq] at hstep
  obtain ⟨⟨hreadings, hkeys⟩, rfl⟩ := hstep
  refine ⟨hreadings, ?_, fun key => ?_, rfl, rfl, rfl⟩
  · rw [← Multiset.coe_nodup, hkeys]
    exact t.limiter.visitors.keys.nodup
  · rw [← Multiset.mem_coe, hkeys, Finset.mem_val, Finmap.mem_keys]

/-- The readings of a tick are not after the time it leaves. -/
theorem Ticks.le_clock (h : Ticks t visits t') {key : Key} {now : Int}
    (hmem : (key, now) ∈ visits) : now ≤ t'.clock := by
  rw [h.clock]
  exact h.readings.mem_le_getLastD (List.mem_map_of_mem (f := Prod.snd) hmem)

/-- An entry that a tick visits. -/
theorem Ticks.lookup (h : Ticks t visits t') {key : Key} {now : Int}
    (hmem : (key, now) ∈ visits) : t'.limiter.visitors.lookup key =
      (t.limiter.visitors.lookup key).filter fun v => now - v.lastSeen ≤ 10 * minute := by
  rw [h.limiter]
  exact lookup_cleanup_of_mem h.nodup hmem

/-- **Every step retains the recent clients.** -/
theorem Retains.step {a : Action Key} (h : Retains t) (htracks : Tracks limit t)
    (hstep : Middleware.step t a = some t') : Retains t' := by
  cases a with
  | request key' span =>
      simp only [Middleware.step, Option.ite_none_right_eq_some, Option.some.injEq] at hstep
      obtain ⟨hreadings, rfl⟩ := hstep
      simp only [Readings, List.pairwise_cons, List.mem_cons, List.not_mem_nil, or_false,
        forall_eq_or_imp, forall_eq] at hreadings
      intro key hnone p hp
      -- a request enters its own client and leaves the entries of the others
      obtain ⟨hlimiter, -⟩ :=
        (htracks.remembers key').middleware_spec htracks.window_eq hreadings.1.1
      rw [hlimiter] at hnone
      by_cases hkey : key = key'
      · rw [hkey, Finmap.lookup_insert] at hnone
        cases hnone
      · rw [Finmap.lookup_insert_of_ne _ hkey] at hnone
        rw [spansFor_cons, if_neg (Ne.symm hkey)] at hp
        have hold := h key hnone p hp
        change 10 * minute < span.last - p.last
        omega
  | tick visits =>
      have hticks := ticks_of_step hstep
      intro key hnone p hp
      rw [hticks.log] at hp
      cases hv : t.limiter.visitors.lookup key with
      | none =>
          -- forgotten before, and even older now
          have hold := h key hv p hp
          have hlater := hticks.readings.le_getLastD
          rw [hticks.clock]
          omega
      | some v =>
          -- this tick removes the entry, which was stale when it was visited
          obtain ⟨q, rest, hspans, rfl⟩ := (htracks.remembers key).present v hv
          rw [hspans] at hp
          obtain rfl := Option.some.inj hp
          obtain ⟨⟨_, now⟩, hmem, rfl⟩ := List.mem_map.mp
            ((hticks.visits_iff key).mpr (Finmap.mem_of_lookup_eq_some hv))
          rw [hticks.lookup hmem, hv, Option.filter_eq_none_iff] at hnone
          have hstale : ¬ now - q.last ≤ 10 * minute := by simpa using hnone _ rfl
          have hend := hticks.le_clock hmem
          omega

/-- **The recent clients are retained after every run.** -/
theorem retains_run {clock : Int} {as : List (Action Key)}
    (hrun : run Middleware.step (Traffic.start limit clock) as = some t) : Retains t := by
  have hboth : Tracks limit t ∧ Retains t :=
    run_invariant (I := fun t => Tracks limit t ∧ Retains t)
      (fun _ _ _ h hstep => ⟨h.1.step hstep, h.2.step h.1 hstep⟩)
      ⟨tracks_start limit clock, retains_start limit clock⟩ hrun
  exact hboth.2

/-- What the clock shows when a tick begins: its first reading. -/
def began (clock : Int) (visits : List (Key × Int)) : Int := (visits.map Prod.snd).headD clock

omit [DecidableEq Key] in
/-- No visit is before the tick began. -/
theorem began_le {clock : Int} (hreadings : Readings clock (visits.map Prod.snd)) {key : Key}
    {now : Int} (hmem : (key, now) ∈ visits) : began clock visits ≤ now := by
  cases visits with
  | nil => exact absurd hmem List.not_mem_nil
  | cons p visits =>
      have hfirst := (List.pairwise_cons.mp (List.pairwise_cons.mp hreadings).2).1
      rcases List.mem_cons.mp hmem with rfl | hmem
      · exact le_refl _
      · exact hfirst now (List.mem_map_of_mem (f := Prod.snd) hmem)

/-- **What the limiter remembers** after a tick. -/
structure Remembered (t : Traffic Key) (visits : List (Key × Int)) (t' : Traffic Key) : Prop where
  /-- A client that the tick visits stays exactly if its newest request is at most ten minutes old
  at that moment. -/
  kept_iff : ∀ key now, (key, now) ∈ visits → (key ∈ t'.limiter.visitors ↔
    ∃ p ∈ (spansFor key t'.log).head?, now - p.last ≤ 10 * minute)
  /-- There are no other clients. -/
  visited : ∀ key ∈ t'.limiter.visitors, ∃ now, (key, now) ∈ visits
  /-- A client whose newest request is at most ten minutes old in the end is there. -/
  recent : ∀ key, ∀ p ∈ (spansFor key t'.log).head?, t'.clock - p.last ≤ 10 * minute →
    key ∈ t'.limiter.visitors
  /-- There are no more clients than there were requests in the ten minutes before the tick. -/
  card_le : t'.limiter.visitors.keys.card ≤
    (t'.log.filter fun r => began t.clock visits - r.span.last ≤ 10 * minute).length

/-- **What the limiter keeps in memory**: in every run, after each tick of the cleanup, the clients
whose newest request was at most ten minutes old when the tick came to them, and so at most as many
as there were requests in the ten minutes before it began. -/
theorem memory_after_cleanup (limit clock : Int) (as : List (Action Key)) (t t' : Traffic Key)
    (visits : List (Key × Int)) (hrun : run step (Traffic.start limit clock) as = some t)
    (hstep : step t (.tick visits) = some t') : Remembered t visits t' := by
  have hticks := ticks_of_step hstep
  have htracks := tracks_run hrun
  have hretains : Retains t' := (retains_run hrun).step htracks hstep
  have hkept : ∀ key now, (key, now) ∈ visits → (key ∈ t'.limiter.visitors ↔
      ∃ p ∈ (spansFor key t'.log).head?, now - p.last ≤ 10 * minute) := by
    intro key now hmem
    obtain ⟨v, hv⟩ := Finmap.mem_iff.mp
      ((hticks.visits_iff key).mp (List.mem_map_of_mem (f := Prod.fst) hmem))
    obtain ⟨p, rest, hspans, rfl⟩ := (htracks.remembers key).present v hv
    rw [Finmap.mem_iff, hticks.lookup hmem, hv, hticks.log, hspans]
    simp [Option.filter_some]
  have hvisited : ∀ key ∈ t'.limiter.visitors, ∃ now, (key, now) ∈ visits := by
    intro key hkey
    by_contra hnone
    have hfresh : key ∉ visits.map Prod.fst := by
      intro hmem
      obtain ⟨⟨_, now⟩, hvisit, rfl⟩ := List.mem_map.mp hmem
      exact hnone ⟨now, hvisit⟩
    obtain ⟨v, hv⟩ := Finmap.mem_iff.mp hkey
    rw [hticks.limiter, lookup_cleanup_of_notMem hfresh] at hv
    exact hfresh ((hticks.visits_iff key).mpr (Finmap.mem_of_lookup_eq_some hv))
  refine ⟨hkept, hvisited, fun key p hp hage => ?_, ?_⟩
  · by_contra hnone
    have hgone := hretains key (Finmap.lookup_eq_none.mpr hnone) p hp
    omega
  · -- each entry of the map has its newest request among those of the last ten minutes
    have hsubset : t'.limiter.visitors.keys ⊆ ((t'.log.filter fun r =>
        began t.clock visits - r.span.last ≤ 10 * minute).map Served.key).toFinset := by
      intro key hkey
      obtain ⟨now, hmem⟩ := hvisited key (Finmap.mem_keys.mp hkey)
      obtain ⟨p, hp, hage⟩ := (hkept key now hmem).mp (Finmap.mem_keys.mp hkey)
      have hbegan := began_le hticks.readings hmem
      obtain ⟨q, hq, rfl⟩ := List.mem_map.mp (List.mem_of_mem_head? hp)
      obtain ⟨r, hr, hfor, rfl⟩ := mem_servedFor.mp hq
      have hlater : began t.clock visits - r.span.last ≤ 10 * minute := by
        change now - r.span.last ≤ 10 * minute at hage
        omega
      rw [List.mem_toFinset, ← hfor]
      exact List.mem_map_of_mem (List.mem_filter.mpr ⟨hr, decide_eq_true hlater⟩)
    refine (Finset.card_le_card hsubset).trans ((List.toFinset_card_le _).trans ?_)
    rw [List.length_map]

/-- Two clients, of which one has been away for more than ten minutes. -/
def twoClients : List (Action String) :=
  [.request "10.0.0.1" ⟨0, 0⟩, .request "10.0.0.2" ⟨300 * second, 300 * second⟩]

/-- The tick that comes then. -/
def twoVisits : List (String × Int) := [("10.0.0.1", 601 * second), ("10.0.0.2", 602 * second)]

/-- Only the second client stays, and it has made the one request of the last ten minutes. -/
theorem memory_after_cleanup_twoClients : ∃ t t',
    run step (Traffic.start 60 0) twoClients = some t ∧ step t (.tick twoVisits) = some t' ∧
    "10.0.0.1" ∉ t'.limiter.visitors ∧ "10.0.0.2" ∈ t'.limiter.visitors ∧
    t'.limiter.visitors.keys.card ≤ 1 := by
  obtain ⟨t, t', hrun, hstep, hold, hnew, hlog⟩ : ∃ t t',
      run step (Traffic.start 60 0) twoClients = some t ∧ step t (.tick twoVisits) = some t' ∧
      (spansFor "10.0.0.1" t'.log).head? = some ⟨0, 0⟩ ∧
      (spansFor "10.0.0.2" t'.log).head? = some ⟨300 * second, 300 * second⟩ ∧
      (t'.log.filter fun r => began t.clock twoVisits - r.span.last ≤ 10 * minute).length = 1 :=
    ⟨_, _, rfl, rfl, rfl, rfl, rfl⟩
  have hremembered := memory_after_cleanup 60 0 twoClients t t' twoVisits hrun hstep
  refine ⟨t, t', hrun, hstep, fun hmem => ?_, ?_, hlog ▸ hremembered.card_le⟩
  · obtain ⟨p, hp, hage⟩ := (hremembered.kept_iff "10.0.0.1" (601 * second) (by decide)).mp hmem
    obtain rfl := Option.some.inj (hold.symm.trans hp)
    exact absurd hage (by decide)
  · exact (hremembered.kept_iff "10.0.0.2" (602 * second) (by decide)).mpr
      ⟨_, hnew, by decide⟩

end ReputationPassport.Middleware
