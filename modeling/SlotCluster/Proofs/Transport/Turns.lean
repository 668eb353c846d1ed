import SlotCluster.Proofs.Transport.Changes

/-!
# Who has the turn

One user at most is in the middle of an exchange or of closing the connection,
and that user has the turn.  Everybody who waits stands in the queue, once, or
is about to begin.
-/

namespace SlotCluster
namespace Transport
namespace Wire

/-- A turn, a queue and the phases of users that fit together. -/
structure Seats (holder : Option Nat) (queue : List Nat)
    (users : List Phase) : Prop where
  queue_nodup : queue.Nodup
  apart : forall {u : Nat}, holder = some u -> u ∉ queue
  holder_busy : forall {u : Nat}, holder = some u ->
    exists phase, users[u]? = some phase ∧ phase.isEnded = false
  queue_waiting : forall {u : Nat}, u ∈ queue ->
    exists phase, users[u]? = some phase ∧ phase.isWaiting = true
  listed : forall {u : Nat} {phase : Phase}, users[u]? = some phase ->
    phase.isEnded = false -> holder = some u ∨ u ∈ queue
  idle : holder = none -> queue = []

namespace Seats

variable {holder : Option Nat} {queue : List Nat} {users : List Phase} {u : Nat}
  {phase : Phase}

theorem start : Seats none [] [] where
  queue_nodup := List.nodup_nil
  apart h := by cases h
  holder_busy h := by cases h
  queue_waiting h := by cases h
  listed h := by cases h
  idle _ := rfl

theorem turn (h : Seats holder queue users) (hphase : users[u]? = some phase)
    (hended : phase.isEnded = false) (hwaiting : phase.isWaiting = false) :
    holder = some u := by
  rcases h.listed hphase hended with hturn | hmem
  · exact hturn
  · rcases h.queue_waiting hmem with ⟨other, hother, hwait⟩
    rw [hphase, Option.some.injEq] at hother
    subst hother
    rw [hwaiting] at hwait
    cases hwait

theorem getElem?_concat_of_some {users : List Phase} {u : Nat} {old : Phase}
    (h : users[u]? = some old) (phase : Phase) :
    (users ++ [phase])[u]? = some old := by
  rw [List.getElem?_append_left (List.getElem?_eq_some_iff.mp h).1]
  exact h

theorem new_not_mem (h : Seats holder queue users) : users.length ∉ queue := by
  intro hmem
  rcases h.queue_waiting hmem with ⟨phase, hphase, _⟩
  exact Nat.lt_irrefl _ (List.getElem?_eq_some_iff.mp hphase).1

theorem wait {owner : Nat} (h : Seats (some owner) queue users)
    (hwaiting : phase.isWaiting = true) :
    Seats (some owner) (queue ++ [users.length]) (users ++ [phase]) where
  queue_nodup := by
    rw [List.nodup_append]
    refine ⟨h.queue_nodup, by simp, ?_⟩
    intro u hu v hv heq
    rw [List.mem_singleton] at hv
    exact h.new_not_mem (hv ▸ heq ▸ hu)
  apart := by
    intro u hu hmem
    rcases List.mem_append.mp hmem with hmem | hmem
    · exact h.apart hu hmem
    · rw [List.mem_singleton] at hmem
      rcases h.holder_busy hu with ⟨old, hold, _⟩
      have hlt := (List.getElem?_eq_some_iff.mp hold).1
      omega
  holder_busy := by
    intro u hu
    rcases h.holder_busy hu with ⟨old, hold, hbusy⟩
    exact ⟨old, getElem?_concat_of_some hold phase, hbusy⟩
  queue_waiting := by
    intro u hmem
    rcases List.mem_append.mp hmem with hmem | hmem
    · rcases h.queue_waiting hmem with ⟨old, hold, hwait⟩
      exact ⟨old, getElem?_concat_of_some hold phase, hwait⟩
    · rw [List.mem_singleton] at hmem
      subst hmem
      exact ⟨phase, List.getElem?_concat_length, hwaiting⟩
  listed := by
    intro u old hold hbusy
    rw [List.getElem?_append] at hold
    by_cases hlt : u < users.length
    · rw [if_pos hlt] at hold
      rcases h.listed hold hbusy with hturn | hmem
      · exact Or.inl hturn
      · exact Or.inr (List.mem_append_left _ hmem)
    · rw [if_neg hlt] at hold
      have hnew : u - users.length < 1 := (List.getElem?_eq_some_iff.mp hold).1
      have hu : u = users.length := by omega
      exact Or.inr (List.mem_append_right _ (List.mem_singleton.mpr hu))
  idle h := by cases h

theorem come (h : Seats none queue users) (hwaiting : phase.isWaiting = true) :
    Seats (some users.length) queue (users ++ [phase]) := by
  have hnil : queue = [] := h.idle rfl
  subst hnil
  constructor
  case queue_nodup => exact List.nodup_nil
  case apart =>
    intro u _ hmem
    cases hmem
  case holder_busy =>
    intro u hu
    cases hu
    exact ⟨phase, List.getElem?_concat_length,
      Phase.isEnded_of_isWaiting hwaiting⟩
  case queue_waiting =>
    intro u hmem
    cases hmem
  case listed =>
    intro u old hold hbusy
    rw [List.getElem?_append] at hold
    by_cases hlt : u < users.length
    · rw [if_pos hlt] at hold
      rcases h.listed hold hbusy with hturn | hmem
      · cases hturn
      · cases hmem
    · rw [if_neg hlt] at hold
      have hnew : u - users.length < 1 := (List.getElem?_eq_some_iff.mp hold).1
      have hu : u = users.length := by omega
      exact Or.inl (congrArg some hu.symm)
  case idle =>
    intro _
    rfl

theorem change (h : Seats (some u) queue users)
    (hbusy : phase.isEnded = false) :
    Seats (some u) queue (users.set u phase) where
  queue_nodup := h.queue_nodup
  apart := h.apart
  holder_busy := by
    intro v hv
    cases hv
    rcases h.holder_busy rfl with ⟨old, hold, _⟩
    exact ⟨phase,
      List.getElem?_set_self (List.getElem?_eq_some_iff.mp hold).1, hbusy⟩
  queue_waiting := by
    intro v hv
    have hne : u ≠ v := fun heq => h.apart rfl (heq ▸ hv)
    rw [List.getElem?_set_ne hne]
    exact h.queue_waiting hv
  listed := by
    intro v old hold hold'
    by_cases hv : u = v
    · exact Or.inl (congrArg some hv)
    · rw [List.getElem?_set_ne hv] at hold
      exact h.listed hold hold'
  idle h := by cases h

theorem leave (h : Seats (some u) queue users) (hended : phase.isEnded = true) :
    Seats queue.head? queue.tail (users.set u phase) where
  queue_nodup := h.queue_nodup.tail
  apart := by
    intro v hv hmem
    cases queue with
    | nil => cases hv
    | cons first rest =>
        cases hv
        exact (List.nodup_cons.mp h.queue_nodup).1 hmem
  holder_busy := by
    intro v hv
    have hmem : v ∈ queue := List.mem_of_head? hv
    have hne : u ≠ v := fun heq => h.apart rfl (heq ▸ hmem)
    rw [List.getElem?_set_ne hne]
    rcases h.queue_waiting hmem with ⟨old, hold, hwait⟩
    exact ⟨old, hold, Phase.isEnded_of_isWaiting hwait⟩
  queue_waiting := by
    intro v hv
    have hmem : v ∈ queue := List.mem_of_mem_tail hv
    have hne : u ≠ v := fun heq => h.apart rfl (heq ▸ hmem)
    rw [List.getElem?_set_ne hne]
    exact h.queue_waiting hmem
  listed := by
    intro v old hold hbusy
    by_cases hv : u = v
    · subst hv
      rcases h.holder_busy rfl with ⟨before, hbefore, _⟩
      rw [List.getElem?_set_self (List.getElem?_eq_some_iff.mp hbefore).1,
        Option.some.injEq] at hold
      subst hold
      rw [hended] at hbusy
      cases hbusy
    · rw [List.getElem?_set_ne hv] at hold
      rcases h.listed hold hbusy with hturn | hmem
      · exact absurd (Option.some.inj hturn) hv
      · cases queue with
        | nil => cases hmem
        | cons first rest =>
            rcases List.mem_cons.mp hmem with heq | hrest
            · exact Or.inl (congrArg some heq.symm)
            · exact Or.inr hrest
  idle := by
    intro hnone
    rw [List.head?_eq_none_iff] at hnone
    rw [hnone]
    rfl

theorem quit (h : Seats holder queue users) (hne : holder ≠ some u)
    (hended : phase.isEnded = true) :
    Seats holder (queue.filter (fun v => v ≠ u)) (users.set u phase) where
  queue_nodup := h.queue_nodup.filter _
  apart := by
    intro v hv hmem
    exact h.apart hv (List.mem_of_mem_filter hmem)
  holder_busy := by
    intro v hv
    have huv : u ≠ v := fun heq => hne (heq ▸ hv)
    rw [List.getElem?_set_ne huv]
    exact h.holder_busy hv
  queue_waiting := by
    intro v hv
    rw [List.mem_filter, decide_eq_true_eq] at hv
    rw [List.getElem?_set_ne (Ne.symm hv.2)]
    exact h.queue_waiting hv.1
  listed := by
    intro v old hold hbusy
    by_cases hv : u = v
    · subst hv
      rw [List.getElem?_set, if_pos rfl] at hold
      split at hold
      · cases hold
        rw [hended] at hbusy
        cases hbusy
      · cases hold
    · rw [List.getElem?_set_ne hv] at hold
      rcases h.listed hold hbusy with hturn | hmem
      · exact Or.inl hturn
      · refine Or.inr (List.mem_filter.mpr ⟨hmem, ?_⟩)
        simpa using Ne.symm hv
  idle := by
    intro hnone
    rw [h.idle hnone]
    rfl

end Seats

/-! ## Connections -/

def Orderly (w : Wire) : Prop :=
  Seats w.holder w.queue w.users

namespace Orderly

variable {w q : Wire} {entrants : List (Option Command)}
  {arrivals : List Resp.Value}

theorem start (address : String) : Orderly { address } :=
  Seats.start

theorem turn (h : Orderly w) {u : Nat} {phase : Phase}
    (hphase : w.phase? u = some phase) (hended : phase.isEnded = false)
    (hwaiting : phase.isWaiting = false) : w.holder = some u :=
  Seats.turn h hphase hended hwaiting

theorem of_holder (h : Orderly w) {u : Nat} (hturn : w.holder = some u) :
    Seats (some u) w.queue w.users :=
  hturn ▸ h

theorem change (h : Orderly w) {u : Nat} {phase : Phase}
    (hturn : w.holder = some u) (hbusy : phase.isEnded = false) :
    Orderly (w.setPhase u phase) := by
  have hseats := (h.of_holder hturn).change hbusy
  rw [← hturn] at hseats
  exact hseats

theorem exchange_turn (h : Orderly w) {u : Nat} {phase : Phase}
    (hphase : w.phase? u = some phase) (hexchange : phase.isExchange = true) :
    w.holder = some u := by
  cases phase with
  | writing _ => exact h.turn hphase rfl rfl
  | reading => exact h.turn hphase rfl rfl
  | _ => cases hexchange

theorem exchange_unique (h : Orderly w) {u v : Nat} {phase other : Phase}
    (hphase : w.phase? u = some phase) (hexchange : phase.isExchange = true)
    (hother : w.phase? v = some other)
    (hexchange' : other.isExchange = true) : u = v := by
  have hu := h.exchange_turn hphase hexchange
  rw [h.exchange_turn hother hexchange', Option.some.injEq] at hu
  exact hu.symm

theorem move (h : Orderly w)
    (hmove : Move entrants arrivals w q) : Orderly q := by
  cases hmove with
  | wait entrant held =>
      have hseats : Seats _ _ _ :=
        (h.of_holder held).wait (Phase.isWaiting_entering entrant)
      rw [← held] at hseats
      exact hseats
  | come entrant free =>
      have hseats : Seats none w.queue w.users := free ▸ h
      exact hseats.come (Phase.isWaiting_entering entrant)
  | begin turn phase _ _ => exact h.change turn rfl
  | refuse turn phase => exact (h.of_holder turn).leave rfl
  | beginClose turn phase => exact h.change turn rfl
  | skipClose turn phase => exact (h.of_holder turn).leave rfl
  | endClose phase => exact (h.of_holder (h.turn phase rfl rfl)).leave rfl
  | send phase more => exact h.change (h.turn phase rfl rfl) rfl
  | sendLast phase => exact h.change (h.turn phase rfl rfl) rfl
  | breakOff keeps phase exchange kind read =>
      apply (h.of_holder (h.exchange_turn phase exchange)).leave
      rcases kind with hnew | ⟨reason, hnew⟩
      · rw [hnew]
        rfl
      · rw [hnew]
        rfl
  | arrive value => exact h
  | fault e => exact h
  | answer phase read => exact (h.of_holder (h.turn phase rfl rfl)).leave rfl
  | quit phase other => exact Seats.quit h other rfl
  | @pass _ u request phase turn =>
      have hstay : w.queue.filter (fun v => v ≠ u) = w.queue := by
        rw [List.filter_eq_self]
        intro v hv
        simp only [ne_eq, decide_not, Bool.not_eq_true',
          decide_eq_false_iff_not]
        intro heq
        exact (h.of_holder turn).apart rfl (heq ▸ hv)
      have hseats : Seats _ _ (w.users.set u .abandoned) :=
        (h.of_holder turn).leave rfl
      rw [← hstay] at hseats
      exact hseats

theorem moves (h : Orderly w)
    (hmoves : Moves entrants arrivals w q) : Orderly q := by
  cases hmoves with
  | one move => exact h.move move
  | two first second => exact (h.move first).move second

theorem step (h : Orderly w) {event : Event}
    (hstep : w.step event = some q) : Orderly q :=
  h.moves (moves_of_step hstep)

theorem run (h : Orderly w) {events : List Event}
    (hrun : w.run events = some q) : Orderly q :=
  run_keeps hrun h (fun hr hstep => hr.step hstep)

end Orderly

end Wire
end Transport
end SlotCluster
