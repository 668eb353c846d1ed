import SlotCluster.Proofs.Pool.Entries
import SlotCluster.Proofs.Pool.NoLeak

/-!
# The end of a pool

A pool that has come to its end is closed, holds nothing and waits for nothing.
Nothing that can still happen to it opens a link; every later call is refused at
once.
-/

namespace SlotCluster
namespace Pool

variable {p q : Pool} {table : Shared} {fallback : Endpoint}
  {events : List Event}

/-! ## Quiet pools after a run -/

theorem quiet_of_mem
    (hcalls : forall call, call ∈ p.calls ->
      exists result, call.phase = .finished result)
    (hcleanups : forall c, c ∈ p.cleanups -> c.closing = none) : p.Quiet where
  calls := by
    intro i phase hphase
    rcases Option.map_eq_some_iff.mp hphase with ⟨call, hcall, rfl⟩
    exact hcalls call (List.mem_of_getElem? hcall)
  cleanups hc := hcleanups _ hc

/-- In a quiet pool whoever has an open link is in the pool. -/
theorem entry_of_open (hrun : run { table, fallback } events = some p)
    (hquiet : p.Quiet) {h l : Nat} {key : Target}
    (hwire : p.wire? h = some (key, l)) (hopen : p.isLinkOpen l = true) :
    exists e, e ∈ p.entries ∧ e.1 = key ∧ p.cellHandle? e.2 = some h := by
  have hstart : Sound { table, fallback } := Sound.start table fallback
  have htended : Tended p := (Tended.start table fallback).run hstart hrun
  have hcovered : Covered p := (Covered.start table fallback).run hstart hrun
  rcases hstart.run hrun with ⟨keyAt, hseated, hwired⟩
  rcases entry_of_quiet hseated htended hcovered hquiet hopen with
    ⟨e, he, hlink⟩
  rcases entryLink?_eq_some.mp hlink with ⟨g, other, hcell, hother⟩
  rcases hwired.cell_wire hcell with ⟨m, hm⟩
  have hkey : keyAt e.2 = e.1 :=
    hseated.entry_key ((entry?_eq_some hseated.keys_nodup).mpr he)
  have hsame : g = h := hwired.wire_inj hother hwire
  subst hsame
  rw [hwire] at hm
  cases hm
  exact ⟨e, he, hkey.symm, hcell⟩

/-!
## Pools at their end

A pool at its end is closed, holds nothing and waits for nothing, and no event
opens a link any more.
-/

structure Ended (p : Pool) : Prop where
  closed : p.isClosed = true
  bare : p.entries = []
  calls : forall {i : Nat} {phase : Phase}, p.phase? i = some phase ->
    exists result, phase = .finished result
  idle : forall {c : Cleanup}, c ∈ p.cleanups ->
    c.closing = none ∧ c.chores = []
  shut : forall l, p.isLinkOpen l = false

theorem ended_of_run (hrun : run { table, fallback } events = some p)
    (hdrain : .drain ∈ events) (hquiet : p.Quiet) : Ended p := by
  have hstart : Sound { table, fallback } := Sound.start table fallback
  have hsound : Sound p := hstart.run hrun
  have htended : Tended p := (Tended.start table fallback).run hstart hrun
  have hcovered : Covered p := (Covered.start table fallback).run hstart hrun
  rcases List.append_of_mem hdrain with ⟨before, after, rfl⟩
  rcases run_split.mp hrun with ⟨m, drained, hbefore, hdrained, hafter⟩
  cases hdrained
  have hm : Sound m := hstart.run hbefore
  have hdraining : Draining m.cleanups.length p :=
    (Draining.start hm).run (hm.kind Kind.drain) hafter
  have hfound : exists c, p.cleanups[m.cleanups.length]? = some c :=
    ⟨_, List.getElem?_eq_getElem hdraining.begun⟩
  rcases hfound with ⟨last, hlast⟩
  have hbare : p.entries = [] :=
    hdraining.entries_eq_nil hsound htended hlast
      (hquiet.cleanups (List.mem_of_getElem? hlast))
  refine ⟨hdraining.closed, hbare, hquiet.calls, fun hc => ?_, fun l => ?_⟩
  · exact ⟨hquiet.cleanups hc, htended.idle hc (hquiet.cleanups hc)⟩
  · rcases hsound with ⟨keyAt, hseated, _⟩
    rw [Bool.eq_false_iff]
    intro hopen
    rcases entry_of_quiet hseated htended hcovered hquiet hopen with ⟨e, he, _⟩
    rw [hbare] at he
    cases he

namespace Ended

theorem beginCleanup (hp : Ended p) (evicted : Nat) :
    Ended (p.beginCleanup [] evicted) where
  closed := hp.closed
  bare := hp.bare
  calls := hp.calls
  idle := by
    intro c hc
    rcases List.mem_append.mp hc with hold | hnew
    · exact hp.idle hold
    · rw [List.mem_singleton.mp hnew]
      exact ⟨rfl, rfl⟩
  shut := hp.shut

theorem relink (hp : Ended p) {links : List Link}
    (hshut : forall l, isLinkOpen { p with links } l = false) :
    Ended { p with links } where
  closed := hp.closed
  bare := hp.bare
  calls := hp.calls
  idle := hp.idle
  shut := hshut

theorem step (hp : Ended p) {event : Event} (h : p.step event = some q) :
    Ended q ∧ q.links.length = p.links.length := by
  have hdone {i : Nat} {phase : Phase} (hphase : p.phase? i = some phase)
      (hopen : forall result, phase ≠ .finished result) : False := by
    rcases hp.calls hphase with ⟨result, hresult⟩
    exact hopen result hresult
  cases taken_of_step h with
  | request target =>
      rw [request, if_pos hp.closed]
      refine ⟨⟨hp.closed, hp.bare, ?_, hp.idle, hp.shut⟩, rfl⟩
      intro i phase hphase
      rw [phase?_addCall] at hphase
      split at hphase
      · cases hphase
        exact ⟨_, rfl⟩
      · exact hp.calls hphase
  | resume phase _ => exact (hdone phase (fun _ => nofun)).elim
  | linked phase => exact (hdone phase (fun _ => nofun)).elim
  | notLinked phase => exact (hdone phase (fun _ => nofun)).elim
  | accepted phase => exact (hdone phase (fun _ => nofun)).elim
  | refused phase => exact (hdone phase (fun _ => nofun)).elim
  | rejected phase => exact (hdone phase (fun _ => nofun)).elim
  | discarded phase => exact (hdone phase (fun _ => nofun)).elim
  | apply table => exact ⟨⟨hp.closed, hp.bare, hp.calls, hp.idle, hp.shut⟩, rfl⟩
  | sweep table =>
      have hempty : Ended { p with entries := [] } :=
        ⟨hp.closed, rfl, hp.calls, hp.idle, hp.shut⟩
      have hsweep :
          p.sweep table = Pool.beginCleanup { p with entries := [] } [] 0 := by
        rw [sweep, hp.bare]
        rfl
      rw [hsweep]
      exact ⟨hempty.beginCleanup 0, rfl⟩
  | drain =>
      have hclosed : Ended { p with isClosed := true } :=
        ⟨rfl, hp.bare, hp.calls, hp.idle, hp.shut⟩
      have hdrain :
          p.drain = Pool.beginCleanup { p with isClosed := true } [] 0 := by
        rw [drain, hp.bare]
        rfl
      rw [hdrain]
      exact ⟨hclosed.beginCleanup 0, rfl⟩
  | @cleaned n c found =>
      have hchores : c.chores = [] := (hp.idle (List.mem_of_getElem? found)).2
      rw [continueCleanup, hchores]
      refine ⟨⟨hp.closed, hp.bare, hp.calls, ?_, hp.shut⟩, rfl⟩
      intro d hd
      rcases List.mem_or_eq_of_mem_set hd with hold | rfl
      · exact hp.idle hold
      · exact ⟨rfl, rfl⟩
  | broke l =>
      refine ⟨hp.relink (fun m => ?_), List.length_modify ..⟩
      have hm := hp.shut m
      unfold isLinkOpen at hm ⊢
      rw [List.getElem?_modify]
      cases hlink : p.links[m]? with
      | none => rfl
      | some link =>
          rw [hlink] at hm
          by_cases hlm : l = m
          · simp [hlm]
          · simpa [hlm] using hm
  | closeHandle n =>
      rcases p.closeHandle_eq n with ⟨links, heq, hlength⟩
      rw [heq]
      refine ⟨hp.relink (fun m => ?_), hlength⟩
      rw [← heq, isLinkOpen_closeHandle, hp.shut]
      rfl
  | @reordered entries perm leads =>
      have hbare : entries = [] := List.perm_nil.mp (hp.bare ▸ perm)
      exact ⟨⟨hp.closed, hbare, hp.calls, hp.idle, hp.shut⟩, rfl⟩

theorem run (hp : Ended p) (h : p.run events = some q) :
    Ended q ∧ q.links.length = p.links.length := by
  refine run_keeps h ⟨hp, rfl⟩ (fun {r u event} hr hlast => ?_)
  rcases hr.1.step hlast with ⟨hu, hlength⟩
  exact ⟨hu, hlength.trans hr.2⟩

end Ended
end Pool
end SlotCluster
