import Mathlib.Algebra.Order.Group.Defs
import Mathlib.Data.List.Chain
import Mathlib.Order.Basic

/-! # Bursts of arrivals

Arrivals come one after another, each during a span of time. A *burst* is a sequence of arrivals in
which each begins at most `w` after the one before it has ended. A *burst limiter* admits an arrival
when the burst it ends, refused arrivals included, has at most `n` members.

A list of arrivals has its newest first, so that the burst that is going on is at its head. Three
facts describe a burst limiter. It admits every arrival exactly when no burst has more than `n`
members (`BurstLimited.all_admitted_iff`). Its decisions depend on nothing but the arrivals
(`BurstLimited.unique`). And within a time of length `w` all arrivals belong to one burst
(`countP_le_burst`), so at most `n` of them are admitted (`BurstLimited.countP_admitted_le`). -/

namespace Timing

/-- The span of time during which something arrives. -/
structure Span (T : Type*) where
  first : T
  last : T
  deriving DecidableEq

variable {T : Type*} [LinearOrder T]

/-- The arrivals come one after another, newest first. -/
def InOrder (spans : List (Span T)) : Prop :=
  spans.Pairwise (fun r p => p.last ≤ r.first) ∧ ∀ r ∈ spans, r.first ≤ r.last

theorem InOrder.tail {r : Span T} {spans : List (Span T)} (h : InOrder (r :: spans)) :
    InOrder spans :=
  ⟨(List.pairwise_cons.mp h.1).2, fun p hp => h.2 p (List.mem_cons_of_mem _ hp)⟩

/-! ## Bursts -/

variable [AddCommGroup T]

/-- The later arrival `r` belongs to the burst of `p`. -/
def Follows (w : T) (r p : Span T) : Prop := r.first - p.last ≤ w

instance (w : T) (r p : Span T) : Decidable (Follows w r p) :=
  inferInstanceAs (Decidable (_ ≤ _))

/-- The number of arrivals in the burst the newest arrival belongs to. -/
def burst (w : T) : List (Span T) → Nat
  | [] => 0
  | [_] => 1
  | r :: p :: spans => if Follows w r p then burst w (p :: spans) + 1 else 1

variable {w : T} {r p : Span T} {spans : List (Span T)}

/-- An arrival that follows the one before it makes the burst longer. -/
theorem burst_of_follows (h : Follows w r p) :
    burst w (r :: p :: spans) = burst w (p :: spans) + 1 := if_pos h

/-- Any other arrival begins a burst of its own. -/
theorem burst_of_not_follows (h : ∀ p ∈ spans.head?, ¬ Follows w r p) :
    burst w (r :: spans) = 1 := by
  cases spans with
  | nil => rfl
  | cons p spans => exact if_neg (h p rfl)

/-- Every arrival is in some burst. -/
theorem burst_pos (w : T) (r : Span T) (spans : List (Span T)) : 0 < burst w (r :: spans) := by
  cases spans with
  | nil => exact Nat.one_pos
  | cons p spans =>
      by_cases h : Follows w r p
      · rw [burst_of_follows h]
        exact Nat.succ_pos _
      · rw [burst_of_not_follows (by simpa using h)]
        exact Nat.one_pos

/-- A chain of arrivals is part of the burst that its newest member belongs to. -/
theorem length_le_burst {ts : List (Span T)} (h : ts.IsChain (Follows w)) :
    ts.length ≤ burst w (ts ++ spans) := by
  induction ts with
  | nil => exact Nat.zero_le _
  | cons r ts ih =>
      cases ts with
      | nil => exact burst_pos w r spans
      | cons p ts =>
          obtain ⟨hrp, htail⟩ := List.isChain_cons_cons.mp h
          have hlen := ih htail
          rw [List.cons_append, List.cons_append, burst_of_follows hrp, List.length_cons]
          exact Nat.succ_le_succ hlen

/-- The burst of the newest arrival is a chain at the head of the list. -/
theorem exists_chain_of_burst (w : T) (spans : List (Span T)) :
    ∃ ts, ts <+: spans ∧ ts.IsChain (Follows w) ∧ ts.length = burst w spans := by
  induction spans with
  | nil => exact ⟨[], List.prefix_refl _, .nil, rfl⟩
  | cons r spans ih =>
      have hone : ∃ ts, ts <+: r :: spans ∧ ts.IsChain (Follows w) ∧ ts.length = 1 :=
        ⟨[r], List.prefix_append [r] spans, .singleton r, rfl⟩
      cases spans with
      | nil => exact hone
      | cons p spans =>
          by_cases hfollows : Follows w r p
          · obtain ⟨ts, hts, hchain, hlen⟩ := ih
            rw [burst_of_follows hfollows]
            refine ⟨r :: ts, (List.prefix_cons_inj r).mpr hts, ?_, congrArg (· + 1) hlen⟩
            -- the burst of `p` begins with `p` itself
            cases ts with
            | nil => exact absurd hlen (Nat.ne_of_lt (burst_pos w p spans))
            | cons q ts =>
                obtain ⟨rfl, -⟩ := List.cons_prefix_cons.mp hts
                exact List.isChain_cons_cons.mpr ⟨hfollows, hchain⟩
          · rw [burst_of_not_follows (by simpa using hfollows)]
            exact hone

/-! ## Burst limiters -/

/-- **A burst limiter**: an arrival is admitted exactly when its burst has at most `n` members. -/
def BurstLimited (w : T) (n : Int) : List (Span T × Bool) → Prop
  | [] => True
  | q :: served =>
      (q.2 = true ↔ (burst w (q.1 :: served.map Prod.fst) : Int) ≤ n) ∧ BurstLimited w n served

variable {n : Int} {served : List (Span T × Bool)}

/-- **Nobody is refused** exactly when no burst has more than `n` members. -/
theorem BurstLimited.all_admitted_iff (h : BurstLimited w n served) (hn : 0 ≤ n) :
    (∀ q ∈ served, q.2 = true) ↔ ∀ ts, ts <:+: served.map Prod.fst → ts.IsChain (Follows w) →
      (ts.length : Int) ≤ n := by
  induction served with
  | nil =>
      refine iff_of_true (fun q hq => absurd hq List.not_mem_nil) fun ts hts _ => ?_
      rw [List.map_nil, List.infix_nil] at hts
      rw [hts]
      exact hn
  | cons q served ih =>
      obtain ⟨hq, hserved⟩ := h
      rw [List.forall_mem_cons, ih hserved, hq, List.map_cons]
      constructor
      · rintro ⟨hburst, hrest⟩ ts hts hchain
        -- a chain that holds the newest arrival is within its burst; an older one is by induction
        rcases List.infix_cons_iff.mp hts with ⟨tail, htail⟩ | hts
        · have hlen : ts.length ≤ burst w (ts ++ tail) := length_le_burst hchain
          rw [htail] at hlen
          omega
        · exact hrest ts hts hchain
      · intro hall
        refine ⟨?_, fun ts hts hchain => hall ts (hts.trans ?_) hchain⟩
        · obtain ⟨ts, hts, hchain, hlen⟩ :=
            exists_chain_of_burst w (q.1 :: served.map Prod.fst)
          rw [← hlen]
          exact hall ts hts.isInfix hchain
        · exact (List.suffix_cons _ _).isInfix

/-- **A burst limiter decides by the arrivals alone**: two that saw the same arrivals decided the
same. -/
theorem BurstLimited.unique {served' : List (Span T × Bool)} (h : BurstLimited w n served)
    (h' : BurstLimited w n served') (hspans : served.map Prod.fst = served'.map Prod.fst) :
    served = served' := by
  induction served generalizing served' with
  | nil => exact (List.map_eq_nil_iff.mp hspans.symm).symm
  | cons q served ih =>
      cases served' with
      | nil => cases hspans
      | cons q' served' =>
          obtain ⟨hspan, hrest⟩ := List.cons.inj hspans
          obtain ⟨hq, hserved⟩ := h
          obtain ⟨hq', hserved'⟩ := h'
          have hdecision : q.2 = q'.2 := by
            rw [Bool.eq_iff_iff, hq, hq', hspan, hrest]
          rw [ih hserved hserved' hrest, Prod.ext hspan hdecision]

/-! ## Windows -/

variable [IsOrderedAddMonoid T]

/-- **All arrivals of the last `w` are in one burst**: those that end at `a` or later, counted at an
arrival that begins at most `w` after `a`, are no more than its burst has members. -/
theorem countP_le_burst {a : T} (h : InOrder (r :: spans)) (ha : r.first - a ≤ w) :
    (r :: spans).countP (fun p => a ≤ p.last) ≤ burst w (r :: spans) := by
  induction spans generalizing r with
  | nil => exact List.countP_le_length
  | cons p spans ih =>
      have hpr : p.last ≤ r.first := (List.pairwise_cons.mp h.1).1 p List.mem_cons_self
      by_cases hfollows : Follows w r p
      · -- the burst goes on, and so does the count
        have hp : p.first - a ≤ w :=
          le_trans (sub_le_sub_right (le_trans (h.tail.2 p List.mem_cons_self) hpr) a) ha
        have hcount := ih h.tail hp
        rw [burst_of_follows hfollows, List.countP_cons]
        split <;> omega
      · -- the arrivals before `r` ended earlier than `a`
        have hpa : p.last < a := by
          have hgap : r.first - a < r.first - p.last :=
            lt_of_le_of_lt ha (lt_of_not_ge hfollows)
          exact (sub_lt_sub_iff_left _).mp hgap
        have hzero : (p :: spans).countP (fun p => a ≤ p.last) = 0 := by
          rw [List.countP_eq_zero]
          intro q hq
          have hqp : q.last ≤ p.last := by
            rcases List.mem_cons.mp hq with rfl | hq
            · exact le_refl _
            · exact le_trans ((List.pairwise_cons.mp h.tail.1).1 q hq)
                (h.tail.2 p List.mem_cons_self)
          simpa using lt_of_le_of_lt hqp hpa
        rw [List.countP_cons, hzero, burst_of_not_follows (by simpa using hfollows)]
        split <;> omega

/-- **The limit is never exceeded**: of the arrivals that touch a time of length at most `w` at most
`n` are admitted. -/
theorem BurstLimited.countP_admitted_le {a b : T} (h : BurstLimited w n served)
    (hn : 0 ≤ n) (horder : InOrder (served.map Prod.fst)) (hab : b - a ≤ w) :
    (served.countP (fun q => q.2 = true ∧ q.1.first ≤ b ∧ a ≤ q.1.last) : Int) ≤ n := by
  induction served with
  | nil => exact hn
  | cons q served ih =>
      obtain ⟨hq, hserved⟩ := h
      by_cases hin : q.2 = true ∧ q.1.first ≤ b ∧ a ≤ q.1.last
      · -- the newest one counts, so the burst it ends covers all that do
        have hburst := countP_le_burst horder (le_trans (sub_le_sub_right hin.2.1 a) hab)
        have hsub : (q :: served).countP (fun q => q.2 = true ∧ q.1.first ≤ b ∧ a ≤ q.1.last) ≤
            ((q :: served).map Prod.fst).countP (fun p => a ≤ p.last) := by
          rw [List.countP_map]
          refine List.countP_mono_left fun p _ hp => ?_
          simp only [decide_eq_true_eq] at hp
          simpa using hp.2.2
        have hle := hq.mp hin.1
        rw [List.map_cons] at hsub
        omega
      · rw [List.countP_cons_of_neg (by simpa using hin)]
        exact ih hserved horder.tail

end Timing
