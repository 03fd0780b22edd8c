import Mathlib.Data.Multiset.AddSub
import Mathlib.Data.Multiset.UnionInter
import Mathlib.Data.List.Range

/-!
Serving numbered requests of several clients.

A `Ledger` records which requests have arrived, which wait, which are being
served, and in which order they were started. `InOrder` says that each client is
served in the order of arrival and one request at a time. In a well-formed ledger
that is in order, starting a request keeps it in order exactly when all earlier
requests of its client are done (`inOrder_start_iff`); what is done stays done.
-/

namespace ConcurrentTcp.Service

/-- A request is its client and its number among the client's requests. -/
structure Ledger (C : Type) where
  arrived : C → Nat
  waiting : Multiset (C × Nat)
  running : Multiset (C × Nat)
  started : List (C × Nat)

namespace Ledger

variable {C : Type}

/-! ### Well-formed ledgers -/

/-- Each arrived request waits or has been started, once; those being served have
been started. -/
structure WellFormed (L : Ledger C) : Prop where
  nodup : (L.waiting + (L.started : Multiset (C × Nat))).Nodup
  known : ∀ k, k ∈ L.waiting + (L.started : Multiset (C × Nat)) ↔ k.2 < L.arrived k.1
  running_le : L.running ≤ (L.started : Multiset (C × Nat))

theorem WellFormed.not_started {L : Ledger C} (wf : WellFormed L) {k : C × Nat}
    (h : k ∈ L.waiting) : k ∉ L.started := by
  intro hstarted
  have disjoint := Multiset.disjoint_of_nodup_add wf.nodup
  exact Multiset.disjoint_left.mp disjoint h (Multiset.mem_coe.mpr hstarted)

theorem WellFormed.started_of_running {L : Ledger C} (wf : WellFormed L) {k : C × Nat}
    (h : k ∈ L.running) : k ∈ L.started :=
  Multiset.mem_coe.mp (Multiset.mem_of_le wf.running_le h)

section Operations

variable [DecidableEq C]

/-- The next request of `c` arrives. -/
def arrive (L : Ledger C) (c : C) : Ledger C :=
  { L with
    arrived := Function.update L.arrived c (L.arrived c + 1)
    waiting := (c, L.arrived c) ::ₘ L.waiting }

/-- A waiting request is started. -/
def start (L : Ledger C) (k : C × Nat) : Ledger C :=
  { L with
    waiting := L.waiting.erase k
    running := k ::ₘ L.running
    started := L.started ++ [k] }

/-- A request has been served. -/
def finish (L : Ledger C) (k : C × Nat) : Ledger C :=
  { L with running := L.running.erase k }

theorem WellFormed.arrive {L : Ledger C} (wf : WellFormed L) (c : C) :
    WellFormed (L.arrive c) where
  nodup := by
    have hfresh : (c, L.arrived c) ∉ L.waiting + (L.started : Multiset (C × Nat)) := by
      rw [wf.known]
      exact Nat.lt_irrefl _
    show ((c, L.arrived c) ::ₘ L.waiting + _).Nodup
    rw [Multiset.cons_add]
    exact Multiset.nodup_cons.mpr ⟨hfresh, wf.nodup⟩
  known := by
    rintro ⟨d, n⟩
    show (d, n) ∈ (c, L.arrived c) ::ₘ L.waiting + (L.started : Multiset (C × Nat)) ↔
      n < Function.update L.arrived c _ d
    rw [Multiset.cons_add, Multiset.mem_cons, wf.known]
    by_cases hd : d = c
    · subst hd
      rw [Function.update_self, Nat.lt_succ_iff, Nat.le_iff_lt_or_eq]
      simp only [Prod.mk.injEq, true_and]
      exact or_comm
    · rw [Function.update_of_ne hd]
      simp [hd]
  running_le := wf.running_le

theorem WellFormed.start {L : Ledger C} (wf : WellFormed L) {k : C × Nat}
    (hk : k ∈ L.waiting) : WellFormed (L.start k) := by
  have hsame : (L.start k).waiting + ((L.start k).started : Multiset (C × Nat)) =
      L.waiting + (L.started : Multiset (C × Nat)) := by
    show L.waiting.erase k + ((L.started ++ [k] : List (C × Nat)) : Multiset (C × Nat)) = _
    rw [← Multiset.coe_add, Multiset.coe_singleton, Multiset.add_comm _ {k}, ← Multiset.add_assoc,
      Multiset.add_comm _ {k}, Multiset.singleton_add, Multiset.cons_erase hk]
  refine ⟨hsame ▸ wf.nodup, fun l => ?_, ?_⟩
  · rw [hsame]
    exact wf.known l
  · show k ::ₘ L.running ≤ ((L.started ++ [k] : List (C × Nat)) : Multiset (C × Nat))
    rw [← Multiset.coe_add, Multiset.coe_singleton, Multiset.add_comm, Multiset.singleton_add]
    exact Multiset.cons_le_cons k wf.running_le

theorem WellFormed.finish {L : Ledger C} (wf : WellFormed L) (k : C × Nat) :
    WellFormed (L.finish k) :=
  ⟨wf.nodup, wf.known, (Multiset.erase_le k L.running).trans wf.running_le⟩

/-! ### Service in order -/

/-- The numbers of a client's started requests, in the order of the starts. -/
def startsOf (L : Ledger C) (c : C) : List Nat := (L.started.filter (·.1 = c)).map (·.2)

theorem mem_startsOf {L : Ledger C} {c : C} {n : Nat} : n ∈ L.startsOf c ↔ (c, n) ∈ L.started := by
  unfold startsOf
  constructor
  · intro h
    obtain ⟨⟨d, m⟩, hmem, rfl⟩ := List.mem_map.mp h
    obtain ⟨hstarted, hd⟩ := List.mem_filter.mp hmem
    obtain rfl : d = c := of_decide_eq_true hd
    exact hstarted
  · intro h
    exact List.mem_map.mpr ⟨(c, n), List.mem_filter.mpr ⟨h, decide_eq_true rfl⟩, rfl⟩

/-- Each client's requests are started in the order of their numbers, and no two of
a client are being served. -/
structure InOrder (L : Ledger C) : Prop where
  starts : ∀ c, L.startsOf c = List.range (L.startsOf c).length
  single : (L.running.map (·.1)).Nodup

/-- Every earlier request of the client is done: it neither waits nor is being
served. -/
def EarlierDone (L : Ledger C) (k : C × Nat) : Prop :=
  ∀ m < k.2, (k.1, m) ∉ L.waiting ∧ (k.1, m) ∉ L.running

theorem EarlierDone.arrive {L : Ledger C} {k : C × Nat} (done : EarlierDone L k)
    (hk : k.2 < L.arrived k.1) (c : C) : EarlierDone (L.arrive c) k := by
  intro m hm
  obtain ⟨hwaiting, hrunning⟩ := done m hm
  refine ⟨fun hmem => ?_, hrunning⟩
  rcases Multiset.mem_cons.mp hmem with heq | hold
  · obtain ⟨hc, hm'⟩ := Prod.mk.inj heq
    rw [← hc] at hm'
    omega
  · exact hwaiting hold

theorem EarlierDone.start {L : Ledger C} {k l : C × Nat} (done : EarlierDone L k)
    (hl : l ∈ L.waiting) : EarlierDone (L.start l) k := by
  intro m hm
  obtain ⟨hwaiting, hrunning⟩ := done m hm
  refine ⟨fun hmem => hwaiting (Multiset.mem_of_mem_erase hmem), fun hmem => ?_⟩
  rcases Multiset.mem_cons.mp hmem with rfl | hold
  · exact hwaiting hl
  · exact hrunning hold

theorem EarlierDone.finish {L : Ledger C} {k : C × Nat} (done : EarlierDone L k) (l : C × Nat) :
    EarlierDone (L.finish l) k := by
  intro m hm
  obtain ⟨hwaiting, hrunning⟩ := done m hm
  exact ⟨hwaiting, fun hmem => hrunning (Multiset.mem_of_mem_erase hmem)⟩

theorem InOrder.arrive {L : Ledger C} (order : InOrder L) (c : C) : InOrder (L.arrive c) :=
  ⟨order.starts, order.single⟩

theorem InOrder.finish {L : Ledger C} (order : InOrder L) (k : C × Nat) : InOrder (L.finish k) :=
  ⟨order.starts,
    Multiset.nodup_of_le (Multiset.map_le_map (Multiset.erase_le k L.running)) order.single⟩

theorem startsOf_start_self (L : Ledger C) (k : C × Nat) :
    (L.start k).startsOf k.1 = L.startsOf k.1 ++ [k.2] := by
  simp [startsOf, Ledger.start]

theorem startsOf_start_of_ne (L : Ledger C) {k : C × Nat} {c : C} (h : k.1 ≠ c) :
    (L.start k).startsOf c = L.startsOf c := by
  simp [startsOf, Ledger.start, h]

/-- A start keeps the order exactly when what came before is done. -/
theorem inOrder_start_iff {L : Ledger C} (wf : WellFormed L) (order : InOrder L) {k : C × Nat}
    (hk : k ∈ L.waiting) : InOrder (L.start k) ↔ EarlierDone L k := by
  have hstarts := order.starts k.1
  constructor
  · intro next m hm
    have hnext := next.starts k.1
    rw [startsOf_start_self, List.length_append, List.length_singleton, List.range_succ] at hnext
    obtain ⟨hold, hlast⟩ := List.append_inj' hnext rfl
    have hnumber : k.2 = (L.startsOf k.1).length := List.singleton_inj.mp hlast
    constructor
    · intro hwaiting
      refine wf.not_started hwaiting (mem_startsOf.mp ?_)
      rw [hold, List.mem_range]
      omega
    · intro hrunning
      have hfree := (Multiset.nodup_cons.mp (Multiset.map_cons _ k L.running ▸ next.single)).1
      exact hfree (Multiset.mem_map_of_mem (·.1) hrunning)
  · intro done
    have hnot : k ∉ L.started := wf.not_started hk
    -- Every number below `k.2` is started, and `k.2` is not.
    have hnumber : k.2 = (L.startsOf k.1).length := by
      have hge : (L.startsOf k.1).length ≤ k.2 := by
        by_contra hlt
        refine hnot (mem_startsOf.mp ?_)
        rw [hstarts, List.mem_range]
        omega
      refine Nat.le_antisymm (Nat.le_of_not_lt fun hlt => ?_) hge
      have harrived : k.2 < L.arrived k.1 := (wf.known k).mp (Multiset.mem_add.mpr (.inl hk))
      rcases Multiset.mem_add.mp ((wf.known (k.1, (L.startsOf k.1).length)).mpr
          (hlt.trans harrived)) with hwaiting | hstarted
      · exact (done _ hlt).1 hwaiting
      · have := mem_startsOf.mpr (Multiset.mem_coe.mp hstarted)
        rw [hstarts, List.mem_range, List.length_range] at this
        exact Nat.lt_irrefl _ this
    constructor
    · intro c
      by_cases hc : k.1 = c
      · subst hc
        rw [startsOf_start_self, List.length_append, List.length_singleton, List.range_succ,
          ← hstarts, hnumber]
      · rw [startsOf_start_of_ne L hc]
        exact order.starts c
    · show (Multiset.map (·.1) (k ::ₘ L.running)).Nodup
      rw [Multiset.map_cons]
      refine Multiset.nodup_cons.mpr ⟨fun hmem => ?_, order.single⟩
      obtain ⟨⟨c, n⟩, hrunning, rfl⟩ := Multiset.mem_map.mp hmem
      have hstarted := mem_startsOf.mpr (wf.started_of_running hrunning)
      rw [hstarts, List.mem_range, ← hnumber] at hstarted
      exact (done n hstarted).2 hrunning

end Operations

end Ledger

end ConcurrentTcp.Service
