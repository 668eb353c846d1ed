import Mathlib.Logic.Basic
import SlotCluster.Config.Settings

/-!
# Settings laid over one another

Settings are merged by laying one over the other.  After any number of overlays
each value is that of the last settings in which it is set, and the view is
renewed if any of them asks for it.  So overlays can be merged in any grouping,
settings laid over themselves change nothing, and neither do blank ones on
either side.

An overlay need not be able to drive a client.  Laid over settings that are, it
leaves them so unless it brings a seed without an address: what it does not set
cannot spoil them.
-/

namespace SlotCluster

/-!
## What is set last

Of a list of values that may be blank, the last one that is not blank counts.
-/

section LastSet

variable {α : Type} {blank lower value other : α} {values uppers : List α}

def LastSet (blank : α) (values : List α) (value : α) : Prop :=
  exists before after, values = before ++ value :: after ∧ value ≠ blank ∧
    forall v, v ∈ after -> v = blank

/-- The value is the last one that is set of those laid over a lowest one, and
it is the lowest one if none of them is set. -/
def Settled (blank lower : α) (uppers : List α) (value : α) : Prop :=
  LastSet blank uppers value ∨ (forall u, u ∈ uppers -> u = blank) ∧
    value = lower

theorem LastSet.unique (h : LastSet blank values value)
    (h' : LastSet blank values other) : value = other := by
  rcases h with ⟨before, after, rfl, hvalue, hafter⟩
  rcases h' with ⟨before', after', hcut, hother, hafter'⟩
  -- One of the two would stand behind the other, where everything is blank.
  rcases List.append_eq_append_iff.mp hcut with ⟨between, _, hrest⟩ |
    ⟨between, _, hrest⟩
  · cases between with
    | nil => exact (List.cons.inj hrest).1
    | cons v between =>
        have hmem : other ∈ after := by
          rw [(List.cons.inj hrest).2]
          exact List.mem_append_right _ List.mem_cons_self
        exact absurd (hafter _ hmem) hother
  · cases between with
    | nil => exact (List.cons.inj hrest).1.symm
    | cons v between =>
        have hmem : value ∈ after' := by
          rw [(List.cons.inj hrest).2]
          exact List.mem_append_right _ List.mem_cons_self
        exact absurd (hafter' _ hmem) hvalue

theorem Settled.ne_blank (h : Settled blank lower uppers value)
    (hlower : lower ≠ blank) : value ≠ blank := by
  rcases h with ⟨_, _, _, hvalue, _⟩ | ⟨_, rfl⟩
  · exact hvalue
  · exact hlower

theorem Settled.eq_of_lastSet (h : Settled blank lower uppers value)
    (hlast : LastSet blank uppers other) : value = other := by
  rcases h with hvalue | ⟨hblank, _⟩
  · exact hvalue.unique hlast
  · rcases hlast with ⟨before, after, rfl, hother, _⟩
    exact absurd
      (hblank other (List.mem_append_right before List.mem_cons_self)) hother

end LastSet

/-! ## One value over another -/

section Overlay

variable {α : Type} [DecidableEq α]

def overlay (blank lower upper : α) : α :=
  if upper = blank then lower else upper

theorem overlay_of_ne {blank upper : α} (h : upper ≠ blank) (lower : α) :
    overlay blank lower upper = upper :=
  if_neg h

theorem overlay_blank (blank lower : α) : overlay blank lower blank = lower :=
  if_pos rfl

theorem blank_overlay (blank upper : α) :
    overlay blank blank upper = upper := by
  unfold overlay
  split
  · rename_i hblank
    exact hblank.symm
  · rfl

theorem overlay_self (blank a : α) : overlay blank a a = a :=
  ite_self a

theorem overlay_assoc (blank a b c : α) :
    overlay blank (overlay blank a b) c =
      overlay blank a (overlay blank b c) := by
  by_cases hc : c = blank
  · rw [hc, overlay_blank, overlay_blank]
  · rw [overlay_of_ne hc, overlay_of_ne hc, overlay_of_ne hc]

theorem settled_foldl (blank lower : α) (uppers : List α) :
    Settled blank lower uppers (uppers.foldl (overlay blank) lower) := by
  induction uppers generalizing lower with
  | nil => exact Or.inr ⟨nofun, rfl⟩
  | cons u rest ih =>
      rw [List.foldl_cons]
      rcases ih (overlay blank lower u) with ⟨before, after, hcut, hset⟩ |
        ⟨hrest, hvalue⟩
      · exact Or.inl ⟨u :: before, after, congrArg (u :: ·) hcut, hset⟩
      · rw [hvalue]
        by_cases hu : u = blank
        · rw [hu, overlay_blank]
          exact Or.inr ⟨List.forall_mem_cons.mpr ⟨rfl, hrest⟩, rfl⟩
        · rw [overlay_of_ne hu]
          exact Or.inl ⟨[], rest, rfl, hu, hrest⟩

end Overlay

/-! ## Settings over settings -/

theorem overlayNumber_eq (lower upper : UInt64) :
    overlayNumber lower upper = overlay 0 lower upper := by
  unfold overlayNumber
  by_cases h : upper = 0
  · rw [h, overlay_blank]
    rfl
  · rw [overlay_of_ne h, if_pos (UInt64.pos_iff_ne_zero.mpr h)]

theorem ViewSettings.merge_eq (lower upper : ViewSettings) :
    lower.merge upper =
      { refresh := lower.refresh || upper.refresh
        refreshSeconds := overlay 0 lower.refreshSeconds upper.refreshSeconds
        discoveryMillis :=
          overlay 0 lower.discoveryMillis upper.discoveryMillis } := by
  rw [merge, overlayNumber_eq, overlayNumber_eq]

theorem LinkSettings.merge_eq (lower upper : LinkSettings) :
    lower.merge upper =
      { connectMillis := overlay 0 lower.connectMillis upper.connectMillis
        commandMillis :=
          overlay 0 lower.commandMillis upper.commandMillis } := by
  rw [merge, overlayNumber_eq, overlayNumber_eq]

namespace Settings

variable {base : Settings} {overlays : List Settings}

theorem merge_eq (lower upper : Settings) :
    lower.merge upper =
      { seeds := overlay [] lower.seeds upper.seeds
        view := lower.view.merge upper.view
        link := lower.link.merge upper.link
        logLevel := overlay "" lower.logLevel upper.logLevel } := by
  simp only [merge, overlay, List.isEmpty_iff, String.isEmpty_iff]

def blank : Settings :=
  { seeds := []
    view := { refresh := false, refreshSeconds := 0, discoveryMillis := 0 }
    link := { connectMillis := 0, commandMillis := 0 }
    logLevel := "" }

theorem merge_assoc (a b c : Settings) :
    (a.merge b).merge c = a.merge (b.merge c) := by
  simp only [merge_eq, ViewSettings.merge_eq, LinkSettings.merge_eq,
    overlay_assoc, Bool.or_assoc]

theorem merge_self (a : Settings) : a.merge a = a := by
  simp only [merge_eq, ViewSettings.merge_eq, LinkSettings.merge_eq,
    overlay_self, Bool.or_self]

theorem blank_merge (a : Settings) : blank.merge a = a := by
  simp only [blank, merge_eq, ViewSettings.merge_eq, LinkSettings.merge_eq,
    blank_overlay, Bool.false_or]

theorem merge_blank (a : Settings) : a.merge blank = a := by
  simp only [blank, merge_eq, ViewSettings.merge_eq, LinkSettings.merge_eq,
    overlay_blank, Bool.or_false]

/-! ## Any number of overlays -/

theorem settled_of_field {α : Type} [DecidableEq α] {empty : α}
    {field : Settings -> α}
    (hfield : forall lower upper,
      field (lower.merge upper) = overlay empty (field lower) (field upper))
    (base : Settings) (overlays : List Settings) :
    Settled empty (field base) (overlays.map field)
      (field (overlays.foldl merge base)) := by
  have hfold : (overlays.map field).foldl (overlay empty) (field base) =
      field (overlays.foldl merge base) :=
    List.foldl_map.trans
      (List.foldl_hom field (fun lower upper => (hfield lower upper).symm))
  rw [← hfold]
  exact settled_foldl empty (field base) (overlays.map field)

theorem refresh_foldl (base : Settings) (overlays : List Settings) :
    (overlays.foldl merge base).view.refresh = true <->
      exists s, s ∈ base :: overlays ∧ s.view.refresh = true := by
  induction overlays generalizing base with
  | nil => simp only [List.foldl_nil, List.mem_singleton, exists_eq_left]
  | cons upper rest ih =>
      have hmerge : (base.merge upper).view.refresh = true <->
          base.view.refresh = true ∨ upper.view.refresh = true :=
        Bool.or_eq_true_iff
      rw [List.foldl_cons, ih]
      simp only [List.mem_cons, or_and_right, exists_or, exists_eq_left,
        hmerge, or_assoc]

structure Overlaid (base : Settings) (overlays : List Settings)
    (result : Settings) : Prop where
  seeds : Settled [] base.seeds (overlays.map (fun s => s.seeds)) result.seeds
  refresh : result.view.refresh = true <->
    exists s, s ∈ base :: overlays ∧ s.view.refresh = true
  refreshSeconds :
    Settled 0 base.view.refreshSeconds
      (overlays.map (fun s => s.view.refreshSeconds)) result.view.refreshSeconds
  discoveryMillis :
    Settled 0 base.view.discoveryMillis
      (overlays.map (fun s => s.view.discoveryMillis))
      result.view.discoveryMillis
  connectMillis :
    Settled 0 base.link.connectMillis
      (overlays.map (fun s => s.link.connectMillis)) result.link.connectMillis
  commandMillis :
    Settled 0 base.link.commandMillis
      (overlays.map (fun s => s.link.commandMillis)) result.link.commandMillis
  logLevel : Settled "" base.logLevel (overlays.map (fun s => s.logLevel))
    result.logLevel

theorem overlaid_foldl (base : Settings) (overlays : List Settings) :
    Overlaid base overlays (overlays.foldl merge base) where
  seeds := settled_of_field (fun lower upper => by rw [merge_eq]) base overlays
  refresh := refresh_foldl base overlays
  refreshSeconds :=
    settled_of_field
      (fun lower upper => by rw [merge_eq, ViewSettings.merge_eq]) base overlays
  discoveryMillis :=
    settled_of_field
      (fun lower upper => by rw [merge_eq, ViewSettings.merge_eq]) base overlays
  connectMillis :=
    settled_of_field
      (fun lower upper => by rw [merge_eq, LinkSettings.merge_eq]) base overlays
  commandMillis :=
    settled_of_field
      (fun lower upper => by rw [merge_eq, LinkSettings.merge_eq]) base overlays
  logLevel :=
    settled_of_field (fun lower upper => by rw [merge_eq]) base overlays

/-! ## What can drive a client -/

theorem isUnusable_eq_true_iff {seed : Seed} :
    isUnusable seed = true <-> ¬ (seed.host ≠ "" ∧ seed.port ≠ 0) := by
  unfold isUnusable
  rw [Bool.or_eq_true, String.isEmpty_iff, decide_eq_true_eq, not_and_or,
    not_not, not_not]

theorem validate_eq_ok_iff {s : Settings} :
    s.validate = .ok () <->
      s.seeds ≠ [] ∧ s.view.refreshSeconds ≠ 0 ∧
        forall seed, seed ∈ s.seeds -> seed.host ≠ "" ∧ seed.port ≠ 0 := by
  unfold validate
  constructor
  · intro h
    split at h
    · cases h
    · rename_i hseeds
      split at h
      · cases h
      · rename_i hfind
        split at h
        · cases h
        · rename_i hperiod
          refine ⟨fun hnil => hseeds (List.isEmpty_iff.mpr hnil), hperiod,
            fun seed hseed => ?_⟩
          have hfound := List.find?_eq_none.mp hfind seed hseed
          exact not_not.mp
            (fun hbad => hfound (isUnusable_eq_true_iff.mpr hbad))
  · rintro ⟨hseeds, hperiod, husable⟩
    have hfind : s.seeds.find? isUnusable = none :=
      List.find?_eq_none.mpr
        (fun seed hseed hbad =>
          isUnusable_eq_true_iff.mp hbad (husable seed hseed))
    rw [if_neg (fun hempty => hseeds (List.isEmpty_iff.mp hempty)), hfind]
    exact if_neg hperiod

theorem validate_foldl (h : base.validate = .ok ()) :
    (overlays.foldl merge base).validate = .ok () <->
      forall seeds, LastSet [] (overlays.map (fun s => s.seeds)) seeds ->
        forall seed, seed ∈ seeds -> seed.host ≠ "" ∧ seed.port ≠ 0 := by
  rcases validate_eq_ok_iff.mp h with ⟨hseeds, hperiod, husable⟩
  have hresult := overlaid_foldl base overlays
  rw [validate_eq_ok_iff, and_iff_right (hresult.seeds.ne_blank hseeds),
    and_iff_right (hresult.refreshSeconds.ne_blank hperiod)]
  constructor
  · intro hall seeds hlast
    rw [← hresult.seeds.eq_of_lastSet hlast]
    exact hall
  · intro hall
    rcases hresult.seeds with hlast | ⟨_, hbase⟩
    · exact hall _ hlast
    · rw [hbase]
      exact husable

/-- Merging lays settings over one another: after any number of overlays each
value is the one that is set last.  So it is associative and idempotent, and
blank settings are neutral on both sides.  Settings that can drive a client
still can after overlays exactly if the last seeds that these bring, if they
bring any, all have an address. -/
theorem merge_exact :
    (forall base overlays, Overlaid base overlays (overlays.foldl merge base)) ∧
    (forall a b c : Settings, (a.merge b).merge c = a.merge (b.merge c)) ∧
    (forall a : Settings, a.merge a = a ∧ blank.merge a = a ∧
      a.merge blank = a) ∧
    forall (base : Settings) (overlays : List Settings),
      base.validate = .ok () ->
      ((overlays.foldl merge base).validate = .ok () <->
        forall seeds, LastSet [] (overlays.map (fun s => s.seeds)) seeds ->
          forall seed, seed ∈ seeds -> seed.host ≠ "" ∧ seed.port ≠ 0) :=
  ⟨overlaid_foldl, merge_assoc,
    fun a => ⟨merge_self a, blank_merge a, merge_blank a⟩,
    fun _ _ h => validate_foldl h⟩

def plain : Settings :=
  ofSeeds [{ host := "a", port := 1 }]

def nameless : Settings :=
  { blank with seeds := [{ host := "", port := 7 }] }

def named : Settings :=
  { blank with seeds := [{ host := "b", port := 2 }] }

theorem merge_exact_named :
    plain.validate = .ok () ∧
      ([nameless, named, blank].foldl merge plain).validate = .ok () ∧
      ([named, nameless].foldl merge plain).validate ≠ .ok () := by
  have hplain : plain.validate = .ok () := rfl
  have hvalid := fun overlays => merge_exact.2.2.2 plain overlays hplain
  have hnamed :
      LastSet [] ([nameless, named, blank].map (fun s => s.seeds))
        named.seeds :=
    ⟨[nameless.seeds], [[]], rfl, by decide, by decide⟩
  have hnameless :
      LastSet [] ([named, nameless].map (fun s => s.seeds)) nameless.seeds :=
    ⟨[named.seeds], [], rfl, by decide, by decide⟩
  refine ⟨hplain, (hvalid _).mpr (fun seeds hlast => ?_), fun hbad => ?_⟩
  · rw [hlast.unique hnamed]
    decide
  · exact absurd
      ((hvalid _).mp hbad _ hnameless { host := "", port := 7 }
        List.mem_cons_self).1 (by decide)

end Settings
end SlotCluster
