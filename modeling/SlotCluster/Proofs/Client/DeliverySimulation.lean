import SlotCluster.Proofs.Client.Dispatches
import SlotCluster.Proofs.Pool.KeySimulation

/-!
# A delivery in company

A delivery to a node shares its session with others: they ask the same pool for
connections, and everything goes on at the same time.  Beside it stands the same
delivery in a session that it has for itself, and whatever concerns the node in
the first session is told to the second.  The two sessions agree about the
delivery all along, so what becomes of it is settled by what the second session
has been told, and that is nothing about other nodes.
-/

namespace SlotCluster

open Client (SessionEvent stepSession)
open Pool (Strand Track Together)

def Pool.Event.pass? : Pool.Event -> Option SessionEvent
  | .resume call => some (.resume call)
  | .linked call => some (.linked call)
  | .notLinked call error => some (.notLinked call error)
  | .accepted call => some (.accepted call)
  | .refused call error => some (.refused call error)
  | .closed call => some (.closed call)
  | .broke link => some (.broke link)
  | .closeHandle handle => some (.closeHandle handle)
  | .apply table => some (.apply table)
  | .reordered entries => some (.reordered entries)
  | _ => none

namespace Session

variable {s s' t t' u r : Session} {event : SessionEvent}
  {events : List SessionEvent} {S S' : Strand} {d e : Nat} {x y : Delivery}

/-!
## What the other session is told

The other session is told of what its delivery does, of what happens to its
call, its connection and its link, and of every table.  When another delivery
asks for a connection to the node, it is told that somebody does.
-/

def leadsTo (s : Session) (key target : Target) : Bool :=
  match target.resolve s.pool.table.table s.pool.fallback with
  | .ok (found, _) => found = key
  | .error _ => false

/-- One of the deliveries of a session, and its number in the session that it
has for itself. -/
structure Focus where
  id : String
  own : Nat
  alone : Nat
  deriving DecidableEq, Repr

namespace Focus

def key (f : Focus) : Target :=
  .node f.id

def echo? (f : Focus) (S : Strand) (s : Session) :
    SessionEvent -> Option SessionEvent
  | .openTarget target =>
      if s.leadsTo f.key target then some (.openTarget target) else none
  | .begin e =>
      if e = f.own then
        some (.begin f.alone)
      else
        match s.deliveries[e]? with
        | some ⟨target, _, _, .pending⟩ =>
            if s.leadsTo f.key target then some (.openTarget target) else none
        | _ => none
  | .proceed e => if e = f.own then some (.proceed f.alone) else none
  | .receive e result =>
      if e = f.own then some (.receive f.alone result) else none
  | event => (event.ofPool?.bind S.echo?).bind Pool.Event.pass?

def echoes (f : Focus) (S : Strand) (s : Session) :
    List SessionEvent -> List SessionEvent
  | [] => []
  | event :: rest =>
      match stepSession s event with
      | none => []
      | some t =>
          match f.echo? S s event with
          | none => echoes f S t rest
          | some echo => echo :: echoes f (S.grow s.pool t.pool) t rest

def strand (f : Focus) (S : Strand) (s : Session) : List SessionEvent -> Strand
  | [] => S
  | event :: rest =>
      match stepSession s event with
      | none => S
      | some t =>
          match f.echo? S s event with
          | none => strand f S t rest
          | some _ => strand f (S.grow s.pool t.pool) t rest

end Focus

/-! ## Sessions that agree -/

inductive DeliveryPhase.Twin (S : Strand) :
    DeliveryPhase -> DeliveryPhase -> Prop where
  | pending : Twin S .pending .pending
  | opening {i j : Nat} (call : Track.Pairs S.calls i j) :
      Twin S (.opening i) (.opening j)
  | sending {h g : Nat} (handle : Track.Pairs S.handles h g) :
      Twin S (.sending h) (.sending g)
  | finished (result : Except ClusterError Resp.Value) :
      Twin S (.finished result) (.finished result)

theorem DeliveryPhase.Twin.mono {a b : DeliveryPhase} (h : Twin S a b)
    (hsub : S.Within S') : Twin S' a b := by
  cases h with
  | pending => exact pending
  | opening call => exact opening (hsub.calls call)
  | sending handle => exact sending (hsub.handles handle)
  | finished result => exact finished result

/-- The delivery goes the same way in the session that it shares and in the one
that it has for itself. -/
structure Coupled (f : Focus) (S : Strand) (s t : Session) : Prop where
  pool : Pool.Twin f.key S s.pool t.pool
  shared : s.isClosed = false
  alone : t.isClosed = false
  delivery : exists x y,
    s.deliveries[f.own]? = some x ∧ t.deliveries[f.alone]? = some y ∧
    x.target = f.key ∧ y.target = f.key ∧ y.command = x.command ∧
    DeliveryPhase.Twin S x.phase y.phase

theorem stepSession_of_ofPool? {e : Pool.Event} (h : event.ofPool? = some e) :
    stepSession s event = (s.pool.step e).map s.withPool := by
  cases event <;> cases h <;> rfl

theorem ofPool?_of_pass? {e : Pool.Event} (h : e.pass? = some event) :
    event.ofPool? = some e := by
  cases e <;> cases h <;> rfl

theorem exists_pass? {e e' : Pool.Event} (h : S.echo? e = some e') :
    exists event : SessionEvent, e'.pass? = some event := by
  cases e with
  | apply table =>
      cases h
      exact ⟨_, rfl⟩
  | request _ | sweep _ | drain | cleaned _ | reordered _ => cases h
  | _ =>
      rcases Option.map_eq_some_iff.mp h with ⟨j, _, rfl⟩
      exact ⟨_, rfl⟩

theorem Turn.eq_of_ne (h : Turn s t d x event y)
    (hne : event.delivery? ≠ some d) : y = x := by
  cases h with
  | stays _ => rfl
  | _ => exact absurd rfl hne

theorem leadsTo_iff {key target : Target} :
    s.leadsTo key target = true <->
      exists endpoint,
        target.resolve s.pool.table.table s.pool.fallback =
          .ok (key, endpoint) := by
  unfold leadsTo
  cases target.resolve s.pool.table.table s.pool.fallback with
  | ok found =>
      rcases found with ⟨k, endpoint⟩
      simp
  | error e => simp

theorem openTarget_of_open (hopen : s.isClosed = false) (target : Target) :
    s.openTarget target = s.withPool (s.pool.request target) := by
  unfold openTarget
  rw [hopen]
  rfl

namespace Coupled

variable {f : Focus} {p q : Pool}

theorem move (h : Coupled f S s t) (hpool : Pool.Twin f.key S' s'.pool t'.pool)
    (hsub : S.Within S') (hshared : s'.isClosed = s.isClosed)
    (halone : t'.isClosed = t.isClosed)
    (hown : s'.deliveries[f.own]? = s.deliveries[f.own]?)
    (hother : t'.deliveries[f.alone]? = t.deliveries[f.alone]?) :
    Coupled f S' s' t' where
  pool := hpool
  shared := hshared.trans h.shared
  alone := halone.trans h.alone
  delivery := by
    rcases h.delivery with ⟨x, y, hx, hy, hleft, hright, hcommand, hphase⟩
    exact ⟨x, y, hown.trans hx, hother.trans hy, hleft, hright, hcommand,
      hphase.mono hsub⟩

theorem setPhase (h : Coupled f S s t) (hpool : Pool.Twin f.key S' p q)
    {a b : DeliveryPhase} (hphase : DeliveryPhase.Twin S' a b) :
    Coupled f S' ((s.withPool p).setPhase f.own a)
      ((t.withPool q).setPhase f.alone b) where
  pool := hpool
  shared := h.shared
  alone := h.alone
  delivery := by
    rcases h.delivery with ⟨x, y, hx, hy, hleft, hright, hcommand, _⟩
    refine ⟨{ x with phase := a }, { y with phase := b }, ?_, ?_, hleft, hright,
      hcommand, hphase⟩
    · rw [deliveries_setPhase, if_pos rfl]
      show (s.deliveries[f.own]?).map _ = _
      rw [hx]
      rfl
    · rw [deliveries_setPhase, if_pos rfl]
      show (t.deliveries[f.alone]?).map _ = _
      rw [hy]
      rfl

/-! ## Events that the other session is told -/

theorem step_openTarget (h : Coupled f S s t) (hs : s.Rooted) {target : Target}
    (hkey : s.leadsTo f.key target = true)
    (hpool : s'.pool = s.pool.request target)
    (hshared : s'.isClosed = s.isClosed)
    (hown : s'.deliveries[f.own]? = s.deliveries[f.own]?) :
    Coupled f (S.grow s.pool s'.pool) s' (t.openTarget target) := by
  rcases hs.sound with ⟨keyAt, hseated, _⟩
  rcases leadsTo_iff.mp hkey with ⟨endpoint, hresolve⟩
  have hasked :
      Pool.Twin f.key (S.grow s.pool s'.pool) s'.pool
        (t.withPool (t.pool.request target)).pool := by
    rw [hpool]
    refine (h.pool.request hseated (fun hfound => ?_)).1.twin
    rw [hresolve] at hfound
    cases hfound
    rfl
  rw [openTarget_of_open h.alone]
  exact h.move hasked (S.within_grow s.pool s'.pool) hshared rfl hown rfl

theorem step_begin (h : Coupled f S s t) (hs : s.Rooted) :
    Option.Rel (fun s' t' => Coupled f (S.grow s.pool s'.pool) s' t')
      (s.begin f.own) (t.begin f.alone) := by
  rcases hs.sound with ⟨keyAt, hseated, _⟩
  rcases h.delivery with
    ⟨⟨target, command, guarded, a⟩, ⟨target', command', guarded', b⟩, hx, hy,
      hleft, hright, _, hphase⟩
  cases hleft
  cases hright
  unfold begin
  simp only [hx, hy, h.shared, h.alone, Bool.and_false,
    Bool.false_eq_true, if_false]
  cases hphase with
  | pending =>
      have hkey {k : Target} {endpoint : Endpoint}
          (hfound : f.key.resolve s.pool.table.table s.pool.fallback =
            .ok (k, endpoint)) : k = f.key := by
        unfold Focus.key Target.resolve at hfound
        dsimp only at hfound
        split at hfound
        · cases hfound
          rfl
        · cases hfound
      rcases h.pool.request hseated hkey with ⟨htogether, hcall⟩
      exact .some (h.setPhase htogether.twin (.opening hcall))
  | _ => exact .none

theorem step_proceed (h : Coupled f S s t) :
    Option.Rel (fun s' t' => Coupled f (S.grow s.pool s'.pool) s' t')
      (s.proceed f.own) (t.proceed f.alone) := by
  have hsame (a : DeliveryPhase) :
      S.grow s.pool (s.setPhase f.own a).pool = S :=
    (Pool.SameSize.refl s.pool).grow_eq S
  rcases h.delivery with ⟨⟨_, _, _, a⟩, ⟨_, _, _, b⟩, hx, hy, _, _, _, hphase⟩
  unfold proceed
  rw [phase?_of_delivery hx, phase?_of_delivery hy]
  cases hphase with
  | opening hcall =>
      rcases h.pool.phase hcall with ⟨v, w, hv, hw, hvw⟩
      simp only [hv, hw]
      cases hvw with
      | failed error =>
          refine .some ?_
          rw [hsame]
          exact h.setPhase h.pool (.finished (.error error))
      | served hhandle =>
          refine .some ?_
          rw [hsame]
          exact h.setPhase h.pool (.sending hhandle)
      | _ => exact .none
  | _ => exact .none

theorem step_receive (h : Coupled f S s t)
    (result : Except ClusterError Resp.Value) :
    Option.Rel (fun s' t' => Coupled f (S.grow s.pool s'.pool) s' t')
      (s.receive f.own result) (t.receive f.alone result) := by
  rcases h.delivery with ⟨⟨_, _, _, a⟩, ⟨_, _, _, b⟩, hx, hy, _, _, _, hphase⟩
  unfold receive
  rw [phase?_of_delivery hx, phase?_of_delivery hy]
  cases hphase with
  | sending hhandle =>
      refine .some ?_
      have hsame :
          S.grow s.pool (s.setPhase f.own (.finished result)).pool = S :=
        (Pool.SameSize.refl s.pool).grow_eq S
      rw [hsame]
      exact h.setPhase h.pool (.finished result)
  | _ => exact .none

theorem step_pool (h : Coupled f S s t) (hs : s.Rooted) {echo : SessionEvent}
    {e e' : Pool.Event} (he : S.echo? e = some e')
    (hevent : event.ofPool? = some e) (hecho : echo.ofPool? = some e') :
    Option.Rel (fun s' t' => Coupled f (S.grow s.pool s'.pool) s' t')
      (stepSession s event) (stepSession t echo) := by
  have hstep := h.pool.step hs.sound he
  rw [stepSession_of_ofPool? hevent, stepSession_of_ofPool? hecho]
  generalize s.pool.step e = a at hstep ⊢
  generalize t.pool.step e' = b at hstep ⊢
  cases hstep with
  | none => exact .none
  | some htogether =>
      exact .some (h.move htogether.twin (S.within_grow _ _) rfl rfl rfl rfl)

/-- An event of which the other session is told is possible in both sessions or
in none, and they agree after it. -/
theorem step_echo (h : Coupled f S s t) (hs : s.Rooted) {echo : SessionEvent}
    (he : f.echo? S s event = some echo) :
    Option.Rel (fun s' t' => Coupled f (S.grow s.pool s'.pool) s' t')
      (stepSession s event) (stepSession t echo) := by
  have hpassed {e : Pool.Event} (hevent : event.ofPool? = some e)
      (he : ((some e).bind S.echo?).bind Pool.Event.pass? = some echo) :
      Option.Rel (fun s' t' => Coupled f (S.grow s.pool s'.pool) s' t')
        (stepSession s event) (stepSession t echo) := by
    rcases Option.bind_eq_some_iff.mp he with ⟨e', he', hpass⟩
    exact h.step_pool hs he' hevent (ofPool?_of_pass? hpass)
  cases event with
  | openTarget target =>
      simp only [Focus.echo?] at he
      split at he
      · rename_i hkey
        cases he
        rw [stepSession, openTarget_of_open h.shared]
        exact .some (h.step_openTarget hs hkey rfl rfl rfl)
      · cases he
  | begin e =>
      simp only [Focus.echo?] at he
      split at he
      · rename_i hown
        cases he
        subst hown
        exact h.step_begin hs
      · rename_i hne
        split at he
        · rename_i target command guarded hfound
          split at he
          · rename_i hkey
            cases he
            have hbegun : stepSession s (.begin e) =
                some ((s.withPool (s.pool.request target)).setPhase e
                  (.opening s.pool.calls.length)) := by
              simp only [stepSession, begin, hfound, h.shared, Bool.and_false,
                Bool.false_eq_true, if_false]
            rw [hbegun]
            refine .some (h.step_openTarget hs hkey rfl rfl ?_)
            rw [deliveries_setPhase, if_neg hne]
            rfl
          · cases he
        · cases he
  | proceed e =>
      simp only [Focus.echo?] at he
      split at he
      · rename_i hown
        cases he
        subst hown
        exact h.step_proceed
      · cases he
  | receive e result =>
      simp only [Focus.echo?] at he
      split at he
      · rename_i hown
        cases he
        subst hown
        exact h.step_receive result
      · cases he
  | route _ | sendTo _ _ | sendOn _ _ | sendToMasters _ => cases he
  | _ => exact hpassed rfl he

/-! ## Other events -/

theorem delivery?_of_echo? (he : f.echo? S s event = none) :
    event.delivery? ≠ some f.own := by
  intro hown
  cases event with
  | begin e | proceed e | receive e result =>
      cases hown
      simp only [Focus.echo?, if_true] at he
      cases he
  | _ => cases hown

theorem twin_off (h : Coupled f S s t) (he : f.echo? S s event = none)
    (hstep : stepSession s event = some s') :
    Pool.Twin f.key S s'.pool t.pool := by
  have hrequest {target : Target} (hkey : ¬ s.leadsTo f.key target = true) :
      Pool.Twin f.key S (s.pool.request target) t.pool := by
    apply h.pool.request_off
    intro endpoint hresolve
    exact hkey (leadsTo_iff.mpr ⟨endpoint, hresolve⟩)
  have hpassed {e : Pool.Event} (hevent : event.ofPool? = some e)
      (he : ((some e).bind S.echo?).bind Pool.Event.pass? = none)
      (hrequest : forall target, e ≠ .request target) (hsweeps : ¬ e.Sweeps) :
      Pool.Twin f.key S s'.pool t.pool := by
    rw [stepSession_of_ofPool? hevent] at hstep
    rcases Option.map_eq_some_iff.mp hstep with ⟨p, hp, rfl⟩
    apply h.pool.step_off _ hp hrequest hsweeps
    cases hecho : S.echo? e with
    | none => rfl
    | some e' =>
        rcases exists_pass? hecho with ⟨passed, hpass⟩
        rw [Option.bind_some, hecho, Option.bind_some, hpass] at he
        cases he
  cases event with
  | openTarget target =>
      simp only [Focus.echo?] at he
      split at he
      · cases he
      · rename_i hkey
        cases hstep
        rw [openTarget_of_open h.shared]
        exact hrequest hkey
  | route command =>
      simp only [stepSession] at hstep
      split at hstep
      · rename_i hr
        rcases deliver_of_route hr with ⟨more, heq⟩
        rw [← Option.some.inj hstep, heq]
        exact h.pool
      · rw [← Option.some.inj hstep]
        exact h.pool
  | sendTo id command =>
      cases hstep
      exact h.pool
  | sendOn handle command =>
      cases hstep
      exact h.pool
  | sendToMasters command =>
      simp only [stepSession] at hstep
      split at hstep
      · rename_i hr
        rcases deliver_of_sendToMasters hr with ⟨more, heq⟩
        rw [← Option.some.inj hstep, heq]
        exact h.pool
      · rw [← Option.some.inj hstep]
        exact h.pool
  | begin e =>
      have hne : e ≠ f.own :=
        fun hsame => delivery?_of_echo? he (congrArg some hsame)
      simp only [stepSession, begin] at hstep
      split at hstep
      · rename_i target command guarded hfound
        simp only [Focus.echo?, if_neg hne, hfound] at he
        split at he
        · cases he
        · rename_i hkey
          rw [h.shared, Bool.and_false, if_neg Bool.false_ne_true] at hstep
          rw [← Option.some.inj hstep]
          exact hrequest hkey
      · cases hstep
  | proceed e =>
      simp only [stepSession, proceed] at hstep
      split at hstep
      · split at hstep
        · rw [← Option.some.inj hstep]
          exact h.pool
        · rw [← Option.some.inj hstep]
          exact h.pool
        · cases hstep
      · cases hstep
  | receive e result =>
      simp only [stepSession, receive] at hstep
      split at hstep
      · rw [← Option.some.inj hstep]
        exact h.pool
      · cases hstep
  | _ =>
      refine hpassed rfl he (fun target hsame => ?_) id
      cases hsame

/-- An event of which the other session is not told leaves it in agreement with
the first. -/
theorem step_off (h : Coupled f S s t) (he : f.echo? S s event = none)
    (hstep : stepSession s event = some s') : Coupled f S s' t := by
  rcases h.delivery with ⟨x, _, hx, _⟩
  rcases turn_of_step hstep hx with ⟨y, hy, hturn⟩
  have hsame := hturn.eq_of_ne (delivery?_of_echo? he)
  have hclosed := (Client.poolEffect_of_stepSession hstep).1
  exact h.move (h.twin_off he hstep) ⟨id, id, id, id⟩ hclosed
    rfl (by rw [hy, hx, hsame]) rfl

/-! ## Runs -/

theorem run (h : Coupled f S s t) (hs : s.Rooted)
    (hrun : s.run events = some s') :
    exists t', t.run (f.echoes S s events) = some t' ∧
      Coupled f (f.strand S s events) s' t' := by
  induction events generalizing S s t with
  | nil =>
      cases hrun
      exact ⟨t, rfl, h⟩
  | cons event rest ih =>
      rcases Option.bind_eq_some_iff.mp hrun with ⟨r, hr, hrest⟩
      have hrooted := hs.grown (Client.grown_of_stepSession hs hr)
      simp only [Focus.echoes, Focus.strand, hr]
      cases he : f.echo? S s event with
      | none => exact ih (h.step_off he hr) hrooted hrest
      | some echo =>
          have hstep := h.step_echo hs he
          rw [hr] at hstep
          cases hecho : stepSession t echo with
          | none =>
              rw [hecho] at hstep
              cases hstep
          | some u =>
              rw [hecho] at hstep
              cases hstep with
              | some hcoupled =>
                  rcases ih hcoupled hrooted hrest with ⟨t', ht', hafter⟩
                  exact ⟨t', Option.bind_eq_some_iff.mpr ⟨u, hecho, ht'⟩,
                    hafter⟩

theorem result?_eq (h : Coupled f S s t) :
    (s.deliveries[f.own]?).bind Delivery.result? =
      (t.deliveries[f.alone]?).bind Delivery.result? := by
  rcases h.delivery with ⟨⟨_, _, _, a⟩, ⟨_, _, _, b⟩, hx, hy, _, _, _, hphase⟩
  rw [hx, hy]
  cases hphase <;> rfl

end Coupled
end Session
end SlotCluster
