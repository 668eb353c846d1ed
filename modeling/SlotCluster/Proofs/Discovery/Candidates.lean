import SlotCluster.Proofs.Discovery.Credentials
import SlotCluster.Proofs.Text.ByteOrder

/-!
# Who is asked

Endpoints are ordered by the bytes of the host and then by the port.  Sorting is
stable, so the endpoints with one address stand together, the first of them in
front, and leaving out neighbours leaves out all but that one.  So an endpoint
is a candidate if and only if it is the first one with its address.
-/

namespace SlotCluster

variable {a b c e : Endpoint} {host : String} {port : UInt16}

namespace Endpoint

/-- The bytes of the host come first, or the hosts are the same and the port is
smaller. -/
def Before (a b : Endpoint) : Prop :=
  Utf8.encode a.host < Utf8.encode b.host ∨ a.host = b.host ∧ a.port < b.port

theorem matches_congr (h : a.Matches b.host b.port) :
    a.Matches host port <-> b.Matches host port := by
  unfold Matches
  rw [h.1, h.2]

/-! ## The order -/

theorem Before.trans (hab : a.Before b) (hbc : b.Before c) : a.Before c := by
  unfold Before at *
  rcases hab with hab | ⟨hhost, hab⟩
  · rcases hbc with hbc | ⟨hhost, _⟩
    · exact Or.inl (List.lt_trans hab hbc)
    · exact Or.inl (hhost ▸ hab)
  · rcases hbc with hbc | ⟨hhost', hbc⟩
    · exact Or.inl (hhost ▸ hbc)
    · exact Or.inr ⟨hhost.trans hhost', UInt16.lt_trans hab hbc⟩

theorem Before.not_matches (h : a.Before b) : ¬ a.Matches b.host b.port := by
  rintro ⟨hhost, hport⟩
  rcases h with hlt | ⟨_, hlt⟩
  · rw [hhost] at hlt
    exact List.lt_irrefl _ hlt
  · rw [hport] at hlt
    exact UInt16.lt_irrefl _ hlt

theorem Before.congr_right (h : a.Before b)
    (hsame : b.Matches c.host c.port) : a.Before c := by
  unfold Before at *
  rw [← hsame.1, ← hsame.2]
  exact h

theorem Before.congr_left (h : b.Before c)
    (hsame : a.Matches b.host b.port) : a.Before c := by
  unfold Before at *
  rw [hsame.1, hsame.2]
  exact h

theorem compareAddress_eq_lt : compareAddress a b = .lt <-> a.Before b := by
  have hhost : compare a.host b.host = .eq <-> a.host = b.host :=
    Std.compare_eq_iff_eq
  have hlt : compare a.host b.host = .lt <-> a.host < b.host :=
    compareOfLessAndEq_eq_lt
  unfold compareAddress Before
  rw [Ordering.then_eq_lt, hhost, hlt, Std.compare_eq_lt,
    Utf8.encode_lt_encode_iff]

theorem compareAddress_eq_eq :
    compareAddress a b = .eq <-> a.Matches b.host b.port := by
  unfold compareAddress Matches
  rw [Ordering.then_eq_eq, Std.compare_eq_iff_eq, Std.compare_eq_iff_eq]

theorem addressLE_iff :
    addressLE a b = true <-> a.Before b ∨ a.Matches b.host b.port := by
  unfold addressLE
  rw [Ordering.isLE_iff_eq_lt_or_eq_eq, compareAddress_eq_lt,
    compareAddress_eq_eq]

theorem addressLE_trans (a b c : Endpoint) (hab : addressLE a b = true)
    (hbc : addressLE b c = true) : addressLE a c = true := by
  rw [addressLE_iff] at *
  rcases hab with hab | hab
  · rcases hbc with hbc | hbc
    · exact Or.inl (hab.trans hbc)
    · exact Or.inl (hab.congr_right hbc)
  · rcases hbc with hbc | hbc
    · exact Or.inl (hbc.congr_left hab)
    · exact Or.inr ⟨hab.1.trans hbc.1, hab.2.trans hbc.2⟩

theorem addressLE_total (a b : Endpoint) :
    (addressLE a b || addressLE b a) = true := by
  have hswap : compareAddress b a = (compareAddress a b).swap := by
    unfold compareAddress
    rw [Ordering.swap_then, ← Std.OrientedOrd.eq_swap,
      ← Std.OrientedOrd.eq_swap]
  unfold addressLE
  rw [hswap]
  cases compareAddress a b <;> rfl

/-!
## Sorting

The endpoints with one address keep their order.
-/

theorem filter_sort (endpoints : List Endpoint) (host : String)
    (port : UInt16) :
    (sort endpoints).filter (fun e => e.Matches host port) =
      endpoints.filter (fun e => e.Matches host port) := by
  have hordered : (endpoints.filter (fun e => e.Matches host port)).Pairwise
      (fun a b => addressLE a b = true) := by
    refine List.pairwise_of_forall_mem_list ?_
    intro a ha b hb
    have hfirst : a.Matches host port :=
      of_decide_eq_true (List.mem_filter.mp ha).2
    have hsecond : b.Matches host port :=
      of_decide_eq_true (List.mem_filter.mp hb).2
    exact addressLE_iff.mpr
      (Or.inr ⟨hfirst.1.trans hsecond.1.symm, hfirst.2.trans hsecond.2.symm⟩)
  have hkept : (endpoints.filter (fun e => e.Matches host port)).Sublist
      (sort endpoints) :=
    List.sublist_mergeSort addressLE_trans addressLE_total hordered
      List.filter_sublist
  have hinside := hkept.filter (fun e => decide (e.Matches host port))
  rw [List.filter_filter] at hinside
  simp only [Bool.and_self] at hinside
  have hlength :=
    ((List.mergeSort_perm endpoints addressLE).filter
      (fun e => decide (e.Matches host port))).length_eq
  exact (hinside.eq_of_length hlength.symm).symm

end Endpoint

namespace Discovery

open Endpoint

/-! ## Leaving out neighbours -/

theorem find?_dropRepeated (l : List Endpoint) (host : String) (port : UInt16) :
    (dropRepeated l).find? (fun e => e.Matches host port) =
      l.find? (fun e => e.Matches host port) := by
  induction l using dropRepeated.induct with
  | case1 a b rest hsame ih =>
      rw [dropRepeated, if_pos hsame, ih, List.find?_cons, List.find?_cons,
        List.find?_cons]
      have hagree :
          decide (b.Matches host port) = decide (a.Matches host port) :=
        decide_eq_decide.mpr (matches_congr hsame).symm
      rw [hagree]
      cases decide (a.Matches host port) <;> rfl
  | case2 a b rest hother ih =>
      rw [dropRepeated, if_neg hother, List.find?_cons, List.find?_cons, ih]
  | case3 short hshort =>
      rw [dropRepeated]
      exact hshort

theorem pairwise_dropRepeated {l : List Endpoint}
    (h : l.Pairwise (fun a b => addressLE a b = true)) :
    (dropRepeated l).Pairwise Before := by
  induction l using dropRepeated.induct with
  | case1 a b rest hsame ih =>
      rw [dropRepeated, if_pos hsame]
      exact ih
        (h.sublist (List.Sublist.cons_cons a (List.sublist_cons_self b rest)))
  | case2 a b rest hother ih =>
      rw [dropRepeated, if_neg hother, List.pairwise_cons]
      rcases List.pairwise_cons.mp h with ⟨hfirst, hrest⟩
      have hab : a.Before b :=
        (addressLE_iff.mp (hfirst b List.mem_cons_self)).resolve_right hother
      refine ⟨?_, ih hrest⟩
      intro c hc
      rcases List.mem_cons.mp ((dropRepeated_sublist _).subset hc) with
        rfl | hmem
      · exact hab
      · rcases addressLE_iff.mp ((List.pairwise_cons.mp hrest).1 c hmem) with
          hbc | hbc
        · exact hab.trans hbc
        · exact hab.congr_right hbc
  | case3 short hshort =>
      rw [dropRepeated]
      · cases short with
        | nil => exact List.Pairwise.nil
        | cons a more =>
            cases more with
            | nil => exact List.pairwise_singleton _ _
            | cons b rest => exact absurd rfl (hshort a b rest)
      · exact hshort

/-! ## Candidates -/

variable {seeds : List Endpoint}

theorem pairwise_candidates (seeds : List Endpoint) :
    (candidates seeds).Pairwise Before :=
  pairwise_dropRepeated
    (List.pairwise_mergeSort addressLE_trans addressLE_total seeds)

theorem find?_candidates (seeds : List Endpoint) (host : String)
    (port : UInt16) :
    (candidates seeds).find? (fun e => e.Matches host port) =
      seeds.find? (fun e => e.Matches host port) := by
  unfold candidates
  rw [find?_dropRepeated, ← List.head?_filter, ← List.head?_filter, filter_sort]

/-- A candidate is the first endpoint with its address. -/
theorem mem_candidates_iff :
    e ∈ candidates seeds <->
      seeds.find? (fun s => s.Matches e.host e.port) = some e := by
  rw [← find?_candidates]
  constructor
  · intro he
    rcases List.mem_iff_append.mp he with ⟨before, after, hcut⟩
    have hordered := pairwise_candidates seeds
    rw [hcut] at hordered ⊢
    have hbefore : before.find? (fun s => s.Matches e.host e.port) = none := by
      rw [List.find?_eq_none]
      intro s hs hmatch
      exact ((List.pairwise_append.mp hordered).2.2 s hs e
        List.mem_cons_self).not_matches (of_decide_eq_true hmatch)
    rw [List.find?_append, hbefore, Option.none_or, List.find?_cons_of_pos]
    exact decide_eq_true ⟨rfl, rfl⟩
  · exact List.mem_of_find?_eq_some

end Discovery
end SlotCluster
