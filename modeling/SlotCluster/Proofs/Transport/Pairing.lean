import SlotCluster.Proofs.Transport.Silence

/-!
# Requests and replies in their order

Requests go out one after the other, each sent by one user, and replies are read
one after the other, each by one user.  The invariant of a connection says how
far both have come: whoever has read a reply has the same place among those
whose request has gone out completely as the reply among all that have come in.
-/

namespace SlotCluster
namespace Transport
namespace Wire

/-!
## What the other side receives

What has gone out is kept in pieces, each with the user for whom it went.  A
request has gone out completely when its last piece has.
-/

def carried (pieces : List (Nat × Bytes)) : Bytes :=
  (pieces.map Prod.snd).flatten

@[simp]
theorem carried_concat (pieces : List (Nat × Bytes)) (u : Nat) (sent : Bytes) :
    carried (pieces ++ [(u, sent)]) = carried pieces ++ sent := by
  simp [carried]

def stream (w : Wire) : Bytes :=
  carried w.outbound

def sentBy (w : Wire) (u : Nat) : Bytes :=
  carried (w.outbound.filter (fun piece => piece.1 = u))

def requests (w : Wire) : List Bytes :=
  w.requested.map w.sentBy

def asked (events : List Event) : List (Option Command) :=
  events.flatMap entrants

def replies (events : List Event) : List Resp.Value :=
  events.flatMap arrivals

/-- These bytes are the encoding of the command that a user has come with. -/
def Wants (asked : List (Option Command)) (u : Nat) (request : Bytes) : Prop :=
  exists command, asked[u]? = some (some command) ∧
    request = command.toValue.encode

/-- These bytes are a part of a request whose end has not gone out, or
nothing. -/
def Torn (asked : List (Option Command)) (w : Wire) (part : Bytes) : Prop :=
  part = [] ∨ exists u left,
    u ∉ w.requested ∧ left ≠ [] ∧ Wants asked u (part ++ left)

section

variable {w : Wire} {u v : Nat} {sent : Bytes}

theorem encode_ne_nil (command : Command) : command.toValue.encode ≠ [] := by
  simp [Command.toValue, Resp.Value.encode, Resp.Value.numberLine]

def emit (w : Wire) (u : Nat) (sent : Bytes) : Wire :=
  { w with outbound := w.outbound ++ [(u, sent)] }

@[simp]
theorem stream_emit (w : Wire) (u : Nat) (sent : Bytes) :
    (w.emit u sent).stream = w.stream ++ sent :=
  carried_concat w.outbound u sent

theorem sentBy_emit_self (w : Wire) (u : Nat) (sent : Bytes) :
    (w.emit u sent).sentBy u = w.sentBy u ++ sent := by
  unfold emit sentBy
  rw [List.filter_append, List.filter_cons_of_pos (by simp), List.filter_nil]
  exact carried_concat _ u sent

theorem sentBy_emit_of_ne (w : Wire) (sent : Bytes) (h : u ≠ v) :
    (w.emit u sent).sentBy v = w.sentBy v := by
  unfold emit sentBy
  rw [List.filter_append, List.filter_cons_of_neg (by simpa using h),
    List.filter_nil, List.append_nil]

theorem requests_emit (sent : Bytes) (hu : u ∉ w.requested) :
    (w.emit u sent).requests = w.requests := by
  apply List.map_congr_left
  intro v hv
  apply sentBy_emit_of_ne
  intro heq
  exact hu (heq ▸ hv)

theorem requests_emit_last (sent : Bytes) (hu : u ∉ w.requested) :
    (w.requested ++ [u]).map (w.emit u sent).sentBy =
      w.requests ++ [w.sentBy u ++ sent] := by
  rw [List.map_append, List.map_singleton, sentBy_emit_self]
  congr 1
  exact requests_emit sent hu

theorem getElem?_of_prefix {α : Type} {xs ys : List α} {k : Nat} {x : α}
    (h : xs <+: ys) (hk : xs[k]? = some x) : ys[k]? = some x := by
  rcases h with ⟨rest, rfl⟩
  rw [List.getElem?_append_left (List.getElem?_eq_some_iff.mp hk).1]
  exact hk

theorem Wants.mono {asked asked' : List (Option Command)} {request : Bytes}
    (h : Wants asked u request) (hasked : asked <+: asked') :
    Wants asked' u request := by
  rcases h with ⟨command, hcommand, heq⟩
  exact ⟨command, getElem?_of_prefix hasked hcommand, heq⟩

end

/-! ## Users -/

def Told (asked : List (Option Command)) (replies : List Resp.Value) (w : Wire)
    (u : Nat) : Phase -> Prop
  | .queued request => Wants asked u request ∧ w.sentBy u = [] ∧ u ∉ w.requested
  | .writing left =>
      Wants asked u (w.sentBy u ++ left) ∧ left ≠ [] ∧ u ∉ w.requested
  | .finished (.ok value) =>
      exists k : Nat, w.requested[k]? = some u ∧ replies[k]? = some value
  | .finished (.error e) => exists reason, e = .connection w.address reason
  | _ => True

theorem Told.mono {asked asked' : List (Option Command)}
    {replies replies' : List Resp.Value} {w q : Wire} {u : Nat} {phase : Phase}
    (h : Told asked replies w u phase) (hasked : asked <+: asked')
    (hreplies : replies <+: replies') (hsent : q.sentBy u = w.sentBy u)
    (hrequested : w.requested <+: q.requested)
    (hmem : u ∈ q.requested -> u ∈ w.requested)
    (haddress : q.address = w.address) : Told asked' replies' q u phase := by
  cases phase with
  | queued request =>
      rcases h with ⟨hwants, hnone, hnot⟩
      exact ⟨hwants.mono hasked, hsent.trans hnone, fun hq => hnot (hmem hq)⟩
  | writing left =>
      rcases h with ⟨hwants, hleft, hnot⟩
      refine ⟨?_, hleft, fun hq => hnot (hmem hq)⟩
      rw [hsent]
      exact hwants.mono hasked
  | finished result =>
      cases result with
      | ok value =>
          rcases h with ⟨k, hk, hvalue⟩
          exact ⟨k, getElem?_of_prefix hrequested hk,
            getElem?_of_prefix hreplies hvalue⟩
      | error e =>
          rcases h with ⟨reason, heq⟩
          exact ⟨reason, by rw [haddress, heq]⟩
  | reading => trivial
  | abandoned => trivial
  | leaving => trivial
  | closing => trivial
  | closed => trivial

/-! ## The exchange in progress -/

/-- How far the exchanges have come: how many requests have got their reply, and
what has gone out of a request that is not complete. -/
inductive Stage (asked : List (Option Command)) (w : Wire) :
    Nat -> Bytes -> Prop where
  | rest (idle : forall {u : Nat} {phase : Phase}, w.phase? u = some phase ->
      phase.isExchange = false) : Stage asked w w.requested.length []
  | writing {u : Nat} {left : Bytes}
      (phase : w.phase? u = some (.writing left)) :
      Stage asked w w.requested.length (w.sentBy u)
  | reading {u : Nat} {earlier : List Nat} (phase : w.phase? u = some .reading)
      (last : w.requested = earlier ++ [u]) : Stage asked w earlier.length []
  | broken {count : Nat} {part : Bytes} (silent : Silent w)
      (torn : Torn asked w part) : Stage asked w count part

namespace Stage

variable {asked asked' : List (Option Command)} {w q : Wire} {u count : Nat}
  {part : Bytes}

theorem of_writing {left : Bytes} (h : Stage asked w count part)
    (horderly : Orderly w) (hphase : w.phase? u = some (.writing left)) :
    count = w.requested.length ∧ part = w.sentBy u := by
  cases h with
  | rest idle => cases idle hphase
  | writing other =>
      have huv := horderly.exchange_unique hphase rfl other rfl
      subst huv
      exact ⟨rfl, rfl⟩
  | reading other last =>
      have huv := horderly.exchange_unique hphase rfl other rfl
      subst huv
      rw [hphase] at other
      cases other
  | broken silent torn => cases silent.idle hphase

theorem of_reading (h : Stage asked w count part) (horderly : Orderly w)
    (hphase : w.phase? u = some .reading) :
    exists earlier, w.requested = earlier ++ [u] ∧ count = earlier.length ∧
      part = [] := by
  cases h with
  | rest idle => cases idle hphase
  | writing other =>
      have huv := horderly.exchange_unique hphase rfl other rfl
      subst huv
      rw [hphase] at other
      cases other
  | reading other last =>
      have huv := horderly.exchange_unique hphase rfl other rfl
      subst huv
      exact ⟨_, last, rfl, rfl⟩
  | broken silent torn => cases silent.idle hphase

theorem of_queued {request : Bytes} (h : Stage asked w count part)
    (horderly : Orderly w) (hturn : w.holder = some u)
    (hphase : w.phase? u = some (.queued request)) (husable : w.isOpen = true) :
    count = w.requested.length ∧ part = [] := by
  have hnobody : forall {v : Nat} {phase : Phase}, w.phase? v = some phase ->
      phase.isExchange = false := by
    intro v phase hv
    rw [Bool.eq_false_iff]
    intro hexchange
    have hholder := horderly.exchange_turn hv hexchange
    rw [hturn, Option.some.injEq] at hholder
    subst hholder
    rw [hphase, Option.some.injEq] at hv
    subst hv
    cases hexchange
  cases h with
  | rest idle => exact ⟨rfl, rfl⟩
  | writing other => cases hnobody other
  | reading other last => cases hnobody other
  | broken silent torn =>
      rw [silent.shut] at husable
      cases husable

theorem keep (h : Stage asked w count part) (hasked : asked <+: asked')
    (hsame : forall {v : Nat} {phase : Phase}, phase.isExchange = true ->
      (q.phase? v = some phase <-> w.phase? v = some phase))
    (houtbound : q.outbound = w.outbound)
    (hrequested : q.requested = w.requested)
    (hshut : w.isOpen = false -> q.isOpen = false) :
    Stage asked' q count part := by
  have hidle :
      (forall {v : Nat} {phase : Phase}, w.phase? v = some phase ->
        phase.isExchange = false) ->
      forall {v : Nat} {phase : Phase}, q.phase? v = some phase ->
      phase.isExchange = false := by
    intro hw v phase hv
    rw [Bool.eq_false_iff]
    intro hexchange
    rw [hw ((hsame hexchange).mp hv)] at hexchange
    cases hexchange
  cases h with
  | rest idle =>
      rw [← hrequested]
      exact Stage.rest (hidle idle)
  | @writing u left phase =>
      have hsent : w.sentBy u = q.sentBy u := by
        unfold sentBy
        rw [houtbound]
      rw [← hrequested, hsent]
      exact Stage.writing ((hsame rfl).mpr phase)
  | reading phase last =>
      exact Stage.reading ((hsame rfl).mpr phase) (hrequested.trans last)
  | broken silent torn =>
      refine Stage.broken ⟨hshut silent.shut, hidle silent.idle⟩ ?_
      rcases torn with hnil | ⟨u, left, hnot, hleft, hwants⟩
      · exact Or.inl hnil
      · exact Or.inr ⟨u, left, hrequested ▸ hnot, hleft, hwants.mono hasked⟩

end Stage

/-!
## Pairing

What users have to show fits what has gone out and come in.
-/

def unread (inbound : List (Except Resp.ReadError Resp.Value)) :
    List Resp.Value :=
  inbound.filterMap Except.toOption

structure Paired (asked : List (Option Command)) (replies : List Resp.Value)
    (w : Wire) : Prop where
  known : asked.length = w.users.length
  told : forall {u : Nat} {phase : Phase}, w.phase? u = some phase ->
    Told asked replies w u phase
  fresh : forall {u : Nat}, w.users.length ≤ u ->
    w.sentBy u = [] ∧ u ∉ w.requested
  complete : forall {u : Nat}, u ∈ w.requested -> Wants asked u (w.sentBy u)
  nodup : w.requested.Nodup
  stage : exists read part, replies = read ++ unread w.inbound ∧
    w.stream = w.requests.flatten ++ part ∧ Stage asked w read.length part

namespace Paired

variable {asked : List (Option Command)} {replies : List Resp.Value}
  {w q : Wire} {u : Nat} {old new phase : Phase}
  {entrants : List (Option Command)} {arrivals : List Resp.Value}

theorem start (address : String) : Paired [] [] { address } where
  known := rfl
  told h := by cases h
  fresh _ := ⟨rfl, List.not_mem_nil⟩
  complete h := by cases h
  nodup := List.nodup_nil
  stage := ⟨[], [], rfl, rfl, Stage.rest (fun h => by cases h)⟩

theorem told_setPhase (new : Phase)
    (hothers : forall {v : Nat} {phase : Phase}, u ≠ v ->
      w.phase? v = some phase -> Told asked replies q v phase)
    (husers : q.users = w.users) (hnew : Told asked replies q u new) {v : Nat}
    {phase : Phase} (hphase : (q.setPhase u new).phase? v = some phase) :
    Told asked replies (q.setPhase u new) v phase := by
  have hsame : q.phase? v = w.phase? v := by
    unfold phase?
    rw [husers]
  rw [phase?_setPhase, hsame] at hphase
  by_cases huv : u = v
  · subst huv
    rw [if_pos rfl, Option.map_eq_some_iff] at hphase
    rcases hphase with ⟨_, _, heq⟩
    subst heq
    exact hnew
  · rw [if_neg huv] at hphase
    exact hothers huv hphase

theorem torn (h : Paired asked replies w) {count : Nat} {part : Bytes}
    (hstage : Stage asked w count part) : Torn asked w part := by
  cases hstage with
  | rest idle => exact Or.inl rfl
  | @writing u left phase =>
      rcases h.told phase with ⟨hwants, hleft, hnot⟩
      exact Or.inr ⟨u, left, hnot, hleft, hwants⟩
  | reading phase last => exact Or.inl rfl
  | broken silent torn => exact torn

/-! ### Changes beside an exchange -/

theorem seats (h : Paired asked replies w) {isOpen : Bool}
    (hshut : w.isOpen = false -> isOpen = false) (hasStreams : Bool)
    (holder : Option Nat) (queue : List Nat) :
    Paired asked replies { w with isOpen, hasStreams, holder, queue } where
  known := h.known
  told := h.told
  fresh := h.fresh
  complete := h.complete
  nodup := h.nodup
  stage := by
    rcases h.stage with ⟨read, part, hreplies, hstream, hstage⟩
    refine ⟨read, part, hreplies, hstream, ?_⟩
    exact hstage.keep (List.prefix_refl asked) (fun _ => Iff.rfl) rfl rfl hshut

theorem settle (h : Paired asked replies w) (hold : w.phase? u = some old)
    (hbefore : old.isExchange = false) (hafter : new.isExchange = false)
    (hnew : Told asked replies w u new) :
    Paired asked replies (w.setPhase u new) where
  known := by
    rw [h.known, setPhase, List.length_set]
  told hv := told_setPhase _ (fun _ hold => h.told hold) rfl hnew hv
  fresh := by
    intro v hv
    rw [setPhase, List.length_set] at hv
    exact h.fresh hv
  complete := h.complete
  nodup := h.nodup
  stage := by
    rcases h.stage with ⟨read, part, hreplies, hstream, hstage⟩
    refine ⟨read, part, hreplies, hstream,
      hstage.keep (List.prefix_refl asked) ?_ rfl rfl id⟩
    intro v phase hexchange
    by_cases huv : u = v
    · subst huv
      rw [phase?_setPhase_self new hold, hold, Option.some.injEq,
        Option.some.injEq]
      constructor
      · intro heq
        rw [heq, hexchange] at hafter
        cases hafter
      · intro heq
        rw [heq, hexchange] at hbefore
        cases hbefore
    · rw [phase?_setPhase_of_ne w new huv]

theorem enter (h : Paired asked replies w) (entrant : Option Command) :
    Paired (asked ++ [entrant]) replies
      { w with users := w.users ++ [.entering entrant] } where
  known := by
    rw [List.length_append, List.length_append, h.known]
    rfl
  told := by
    intro v phase hphase
    rw [phase?_concat] at hphase
    by_cases hv : v = w.users.length
    · rw [if_pos hv, Option.some.injEq] at hphase
      subst hphase hv
      cases entrant with
      | none => trivial
      | some command =>
          refine ⟨⟨command, ?_, rfl⟩, h.fresh (Nat.le_refl _)⟩
          rw [← h.known]
          exact List.getElem?_concat_length
    · rw [if_neg hv] at hphase
      exact (h.told hphase).mono (List.prefix_append _ _) (List.prefix_refl _)
        rfl (List.prefix_refl _) id rfl
  fresh := by
    intro v hv
    rw [List.length_append] at hv
    exact h.fresh (Nat.le_of_add_right_le hv)
  complete hu := (h.complete hu).mono (List.prefix_append _ _)
  nodup := h.nodup
  stage := by
    rcases h.stage with ⟨read, part, hreplies, hstream, hstage⟩
    refine ⟨read, part, hreplies, hstream,
      hstage.keep (List.prefix_append _ _) ?_ rfl rfl id⟩
    intro v phase hexchange
    rw [phase?_concat]
    by_cases hv : v = w.users.length
    · have hnobody : w.phase? v = none := by
        subst hv
        exact List.getElem?_eq_none (Nat.le_refl _)
      rw [if_pos hv, hnobody, Option.some.injEq]
      constructor
      · intro heq
        subst heq
        cases entrant <;> cases hexchange
      · intro heq
        cases heq
    · rw [if_neg hv]

theorem arrive (h : Paired asked replies w)
    (reply : Except Resp.ReadError Resp.Value) :
    Paired asked (replies ++ reply.toOption.toList)
      { w with inbound := w.inbound ++ [reply] } where
  known := h.known
  told hphase :=
    (h.told hphase).mono (List.prefix_refl _) (List.prefix_append _ _)
      rfl (List.prefix_refl _) id rfl
  fresh := h.fresh
  complete := h.complete
  nodup := h.nodup
  stage := by
    rcases h.stage with ⟨read, part, hreplies, hstream, hstage⟩
    refine ⟨read, part, ?_, hstream,
      hstage.keep (List.prefix_refl _) (fun _ => Iff.rfl) rfl rfl id⟩
    have hunread : unread (w.inbound ++ [reply]) = unread w.inbound ++
        reply.toOption.toList := by
      unfold unread
      rw [List.filterMap_append]
      cases reply <;> rfl
    rw [hunread, ← List.append_assoc, ← hreplies]

/-! ### Changes of an exchange -/

theorem begin {request : Bytes} (h : Paired asked replies w)
    (horderly : Orderly w) (hturn : w.holder = some u)
    (hphase : w.phase? u = some (.queued request)) (husable : w.isOpen = true) :
    Paired asked replies (w.setPhase u (.writing request)) where
  known := by
    rw [h.known, setPhase, List.length_set]
  told := by
    rcases h.told hphase with ⟨hwants, hnone, hnot⟩
    have hnew : Told asked replies w u (.writing request) := by
      refine ⟨?_, ?_, hnot⟩
      · rw [hnone]
        exact hwants
      · rcases hwants with ⟨command, _, rfl⟩
        exact encode_ne_nil command
    intro v phase hv
    exact told_setPhase _ (fun _ hold => h.told hold) rfl hnew hv
  fresh := by
    intro v hv
    rw [setPhase, List.length_set] at hv
    exact h.fresh hv
  complete := h.complete
  nodup := h.nodup
  stage := by
    rcases h.stage with ⟨read, part, hreplies, hstream, hstage⟩
    rcases hstage.of_queued horderly hturn hphase husable with ⟨hcount, hpart⟩
    subst hpart
    refine ⟨read, [], hreplies, hstream, ?_⟩
    rw [hcount]
    have hstage' : Stage asked (w.setPhase u (.writing request)) _ _ :=
      Stage.writing (phase?_setPhase_self (.writing request) hphase)
    rw [show (w.setPhase u (.writing request)).sentBy u =
      [] from (h.told hphase).2.1] at hstage'
    exact hstage'

theorem send {sent left : Bytes} (h : Paired asked replies w)
    (horderly : Orderly w)
    (hphase : w.phase? u = some (.writing (sent ++ left))) (hmore : left ≠ []) :
    Paired asked replies
      ({ w with outbound := w.outbound ++ [(u, sent)] }.setPhase u
        (.writing left)) := by
  rcases h.told hphase with ⟨hwants, _, hnot⟩
  have hself := sentBy_emit_self w u sent
  constructor
  case known => rw [h.known, setPhase, List.length_set]
  case told =>
    have hnew : Told asked replies (w.emit u sent) u (.writing left) := by
      refine ⟨?_, hmore, hnot⟩
      rw [hself, List.append_assoc]
      exact hwants
    intro v phase hv
    refine told_setPhase (w := w) (q := w.emit u sent) _ ?_ rfl hnew hv
    intro v phase hv hold
    exact (h.told hold).mono (List.prefix_refl _) (List.prefix_refl _)
      (sentBy_emit_of_ne w sent hv) (List.prefix_refl _) id rfl
  case fresh =>
    intro v hv
    rw [setPhase, List.length_set] at hv
    have huv : u ≠ v := Nat.ne_of_lt (Nat.lt_of_lt_of_le (phase?_lt hphase) hv)
    exact ⟨(sentBy_emit_of_ne w sent huv).trans (h.fresh hv).1, (h.fresh hv).2⟩
  case complete =>
    intro v hv
    have huv : u ≠ v := fun heq => hnot (heq ▸ hv)
    have hwants' := h.complete hv
    rw [← sentBy_emit_of_ne w sent huv] at hwants'
    exact hwants'
  case nodup => exact h.nodup
  case stage =>
    rcases h.stage with ⟨read, part, hreplies, hstream, hstage⟩
    rcases hstage.of_writing horderly hphase with ⟨hcount, hpart⟩
    refine ⟨read, w.sentBy u ++ sent, hreplies, ?_, ?_⟩
    · change (w.emit u sent).stream = (w.emit u sent).requests.flatten ++ _
      rw [stream_emit, requests_emit sent hnot, hstream, hpart,
        List.append_assoc]
    · rw [hcount, ← hself]
      exact Stage.writing
        (phase?_setPhase_self (w := w.emit u sent) (.writing left) hphase)

theorem sendLast {sent : Bytes} (h : Paired asked replies w)
    (horderly : Orderly w) (hphase : w.phase? u = some (.writing sent)) :
    Paired asked replies
      ({ w with
        outbound := w.outbound ++ [(u, sent)]
        requested := w.requested ++ [u] }.setPhase u .reading) := by
  rcases h.told hphase with ⟨hwants, _, hnot⟩
  have hself := sentBy_emit_self w u sent
  have hmem : forall {v : Nat}, u ≠ v -> v ∈ w.requested ++ [u] ->
      v ∈ w.requested := by
    intro v huv hv
    rcases List.mem_append.mp hv with hv' | hv'
    · exact hv'
    · exact absurd (List.mem_singleton.mp hv').symm huv
  constructor
  case known => rw [h.known, setPhase, List.length_set]
  case told =>
    intro v phase hv
    refine told_setPhase (w := w)
      (q := { w.emit u sent with requested := w.requested ++ [u] }) .reading ?_
      rfl trivial hv
    intro v phase hv hold
    exact (h.told hold).mono (List.prefix_refl _) (List.prefix_refl _)
      (sentBy_emit_of_ne w sent hv) (List.prefix_append _ _) (hmem hv) rfl
  case fresh =>
    intro v hv
    rw [setPhase, List.length_set] at hv
    have huv : u ≠ v := Nat.ne_of_lt (Nat.lt_of_lt_of_le (phase?_lt hphase) hv)
    exact ⟨(sentBy_emit_of_ne w sent huv).trans (h.fresh hv).1,
      fun hv' => (h.fresh hv).2 (hmem huv hv')⟩
  case complete =>
    intro v hv
    by_cases huv : u = v
    · subst huv
      rw [← hself] at hwants
      exact hwants
    · have hwants' := h.complete (hmem huv hv)
      rw [← sentBy_emit_of_ne w sent huv] at hwants'
      exact hwants'
  case nodup =>
    change (w.requested ++ [u]).Nodup
    rw [List.nodup_append]
    refine ⟨h.nodup, by simp, ?_⟩
    intro v hv v' hv' heq
    rw [List.mem_singleton] at hv'
    exact hnot (hv' ▸ heq ▸ hv)
  case stage =>
    rcases h.stage with ⟨read, part, hreplies, hstream, hstage⟩
    rcases hstage.of_writing horderly hphase with ⟨hcount, hpart⟩
    refine ⟨read, [], hreplies, ?_, ?_⟩
    · change (w.emit u sent).stream =
        ((w.requested ++ [u]).map (w.emit u sent).sentBy).flatten ++ []
      rw [stream_emit, requests_emit_last sent hnot, hstream, hpart]
      simp
    · rw [hcount]
      exact Stage.reading
        (phase?_setPhase_self
          (w := { w.emit u sent with requested := w.requested ++ [u] })
          .reading hphase) rfl

theorem breakOff {inbound : List (Except Resp.ReadError Resp.Value)}
    {keeps : Bool} (h : Paired asked replies w) (horderly : Orderly w)
    (hphase : w.phase? u = some old) (hexchange : old.isExchange = true)
    (hkind : new = .abandoned ∨
      exists reason, new = .finished (.error (.connection w.address reason)))
    (hread : unread inbound = unread w.inbound) :
    Paired asked replies ({ w with inbound }.breakOff u new keeps) where
  known := by
    rw [h.known, Wire.breakOff, setPhase, List.length_set]
    rfl
  told := by
    have hnew : Told asked replies w u new := by
      rcases hkind with rfl | ⟨reason, rfl⟩
      · trivial
      · exact ⟨reason, rfl⟩
    intro v phase hv
    exact told_setPhase
      (q := release { w with inbound, isOpen := false, hasStreams := _ })
      (u := u) new (fun _ hold => h.told hold) rfl hnew hv
  fresh := by
    intro v hv
    rw [Wire.breakOff, setPhase, List.length_set] at hv
    exact h.fresh hv
  complete := h.complete
  nodup := h.nodup
  stage := by
    rcases h.stage with ⟨read, part, hreplies, hstream, hstage⟩
    rw [← hread] at hreplies
    have hsilent :=
      silent_breakOff horderly hphase hexchange (isExchange_of_kind hkind)
        inbound keeps
    exact ⟨read, part, hreplies, hstream, Stage.broken hsilent (h.torn hstage)⟩

theorem answer {value : Resp.Value}
    {inbound : List (Except Resp.ReadError Resp.Value)}
    (h : Paired asked replies w) (horderly : Orderly w)
    (hphase : w.phase? u = some .reading)
    (hread : w.inbound = .ok value :: inbound) :
    Paired asked replies
      ({ w with inbound }.release.setPhase u (.finished (.ok value))) := by
  rcases h.stage with ⟨read, part, hreplies, hstream, hstage⟩
  rcases hstage.of_reading horderly hphase with ⟨earlier, hlast, hcount, hpart⟩
  subst hpart
  have hunread : unread w.inbound = value :: unread inbound := by
    rw [hread]
    rfl
  constructor
  case known => rw [h.known, setPhase, List.length_set]; rfl
  case told =>
    have hnew : Told asked replies w u (.finished (.ok value)) := by
      refine ⟨earlier.length, ?_, ?_⟩
      · rw [hlast]
        exact List.getElem?_concat_length
      · rw [hreplies, hunread, ← hcount,
          List.getElem?_append_right (Nat.le_refl _), Nat.sub_self]
        rfl
    intro v phase hv
    exact told_setPhase (q := release { w with inbound }) (u := u)
      (.finished (.ok value)) (fun _ hold => h.told hold) rfl hnew hv
  case fresh =>
    intro v hv
    rw [setPhase, List.length_set] at hv
    exact h.fresh hv
  case complete => exact h.complete
  case nodup => exact h.nodup
  case stage =>
    refine ⟨read ++ [value], [], ?_, hstream, ?_⟩
    · rw [hreplies, hunread, List.append_assoc]
      rfl
    · have hlength : (read ++ [value]).length = w.requested.length := by
        rw [hlast, List.length_append, List.length_append, hcount]
        rfl
      rw [hlength]
      refine Stage.rest ?_
      intro v phase hv
      by_cases huv : u = v
      · subst huv
        have hself :=
          phase?_setPhase_self (w := release { w with inbound })
            (.finished (.ok value)) hphase
        rw [hv, Option.some.injEq] at hself
        rw [hself]
        rfl
      · rw [phase?_setPhase_of_ne _ _ huv] at hv
        rw [Bool.eq_false_iff]
        intro hexchange
        exact huv (horderly.exchange_unique hphase rfl hv hexchange)

/-! ### Runs -/

theorem move (h : Paired asked replies w) (horderly : Orderly w)
    (hmove : Move entrants arrivals w q) :
    Paired (asked ++ entrants) (replies ++ arrivals) q := by
  cases hmove with
  | wait entrant held =>
      rw [List.append_nil]
      exact (h.enter entrant).seats
        (fun hshut => by rw [hshut, Bool.false_and]) _ _ _
  | come entrant free =>
      rw [List.append_nil]
      exact (h.enter entrant).seats
        (fun hshut => by rw [hshut, Bool.false_and]) _ _ _
  | begin turn phase usable streams =>
      rw [List.append_nil, List.append_nil]
      exact h.begin horderly turn phase usable
  | refuse turn phase =>
      rw [List.append_nil, List.append_nil]
      exact (h.seats id (w.hasStreams && w.isOpen) w.queue.head?
        w.queue.tail).settle phase rfl rfl ⟨_, rfl⟩
  | beginClose turn phase =>
      rw [List.append_nil, List.append_nil]
      exact (h.seats id false w.holder w.queue).settle phase rfl rfl trivial
  | skipClose turn phase =>
      rw [List.append_nil, List.append_nil]
      exact (h.seats id w.hasStreams w.queue.head? w.queue.tail).settle phase
        rfl rfl trivial
  | endClose phase =>
      rw [List.append_nil, List.append_nil]
      exact (h.seats id w.hasStreams w.queue.head? w.queue.tail).settle phase
        rfl rfl trivial
  | send phase more =>
      rw [List.append_nil, List.append_nil]
      exact h.send horderly phase more
  | sendLast phase =>
      rw [List.append_nil, List.append_nil]
      exact h.sendLast horderly phase
  | breakOff keeps phase exchange kind read =>
      rw [List.append_nil, List.append_nil]
      refine h.breakOff horderly phase exchange kind ?_
      rcases read with hsame | ⟨e, hfault⟩
      · rw [hsame]
      · rw [hfault]
        rfl
  | arrive value =>
      rw [List.append_nil]
      exact h.arrive (.ok value)
  | fault e =>
      have harrive := h.arrive (.error e)
      rw [List.append_nil]
      exact harrive
  | answer phase read =>
      rw [List.append_nil, List.append_nil]
      exact h.answer horderly phase read
  | @quit _ u request phase other =>
      rw [List.append_nil, List.append_nil]
      exact (h.seats id w.hasStreams w.holder
        (w.queue.filter (fun v => v ≠ u))).settle phase rfl rfl trivial
  | @pass _ u request phase turn =>
      rw [List.append_nil, List.append_nil]
      exact (h.seats id w.hasStreams (w.queue.filter (fun v => v ≠ u)).head?
        (w.queue.filter (fun v => v ≠ u)).tail).settle phase rfl rfl trivial

theorem requests_move (h : Paired asked replies w)
    (hmove : Move entrants arrivals w q) : w.requests <+: q.requests := by
  cases hmove with
  | @send _ u sent left phase more =>
      have hsame : (w.emit u sent).requests = w.requests :=
        requests_emit sent (h.told phase).2.2
      rw [← hsame]
      exact List.prefix_refl _
  | @sendLast _ u sent phase =>
      have hlast := requests_emit_last sent (h.told phase).2.2
      exact ⟨_, hlast.symm⟩
  | _ => exact List.prefix_refl _

theorem moves (h : Paired asked replies w) (horderly : Orderly w)
    (hmoves : Moves entrants arrivals w q) :
    Paired (asked ++ entrants) (replies ++ arrivals) q ∧
      w.requests <+: q.requests := by
  cases hmoves with
  | one move => exact ⟨h.move horderly move, h.requests_move move⟩
  | two first second =>
      have hfirst := h.move horderly first
      have hsecond := hfirst.move (horderly.move first) second
      rw [List.append_nil, List.append_nil] at hsecond
      exact ⟨hsecond,
        (h.requests_move first).trans (hfirst.requests_move second)⟩

theorem run {events : List Event} (h : Paired asked replies w)
    (horderly : Orderly w) (hrun : w.run events = some q) :
    Paired (asked ++ Wire.asked events) (replies ++ Wire.replies events) q ∧
      w.requests <+: q.requests := by
  induction events generalizing asked replies w with
  | nil =>
      cases hrun
      rw [Wire.asked, Wire.replies, List.flatMap_nil, List.flatMap_nil,
        List.append_nil, List.append_nil]
      exact ⟨h, List.prefix_refl _⟩
  | cons event rest ih =>
      rcases Option.bind_eq_some_iff.mp hrun with ⟨r, hr, hrest⟩
      rcases h.moves horderly (moves_of_step hr) with ⟨hstep, hprefix⟩
      rcases ih hstep (horderly.step hr) hrest with ⟨hlast, hprefix'⟩
      rw [Wire.asked, Wire.replies, List.flatMap_cons, List.flatMap_cons,
        ← List.append_assoc, ← List.append_assoc]
      exact ⟨hlast, hprefix.trans hprefix'⟩

end Paired

end Wire
end Transport
end SlotCluster
