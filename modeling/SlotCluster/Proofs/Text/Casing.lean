import SlotCluster.Text.UpperCase

/-!
# Upper case of upper case

Upper case leaves a text alone that is in upper case already, because no
replacement that stands in the tables is itself replaced.  The replacements of a
run keep clear of every run: either they lie outside its range, or both go in
steps of two and miss each other.
-/

namespace SlotCluster
namespace Text

def asciiRun : CaseRun :=
  ⟨0x61, 0x7A, 1, 0x41⟩

/-- Every character that has another upper case lies in one of these runs.  A
character with a longer replacement is a run of its own. -/
def allRuns : List CaseRun :=
  asciiRun :: (expansions.map (fun entry => ⟨entry.1, entry.1, 2, 0⟩) ++ shifts)

def isFixed (code : Nat) : Bool :=
  allRuns.all (fun run => !run.covers code)

def CaseRun.avoids (run other : CaseRun) : Bool :=
  Nat.blt (run.upper + (run.last - run.first)) other.first ||
    Nat.blt other.last run.upper || Nat.beq other.step 2 &&
    (Nat.beq run.step 2 || Nat.beq run.first run.last) &&
    !Nat.beq (run.upper % 2) (other.first % 2)

theorem covers_iff {run : CaseRun} {code : Nat} :
    run.covers code = true ↔ run.first ≤ code ∧ code ≤ run.last ∧
      (code - run.first) % run.step = 0 := by
  simp [CaseRun.covers, and_assoc]

theorem not_covers_of_avoids {run other : CaseRun} {code : Nat}
    (havoids : run.avoids other = true) (hcovers : run.covers code = true) :
    other.covers (run.upper + (code - run.first)) = false := by
  rcases covers_iff.mp hcovers with ⟨hfirst, hlast, hstep⟩
  rw [Bool.eq_false_iff]
  intro hother
  rcases covers_iff.mp hother with ⟨hfirst', hlast', hstep'⟩
  simp only [CaseRun.avoids, Bool.or_eq_true, Bool.and_eq_true, Nat.blt_eq,
    Nat.beq_eq] at havoids
  rcases havoids with (hbelow | habove) | ⟨⟨htwo, heven⟩, hparity⟩
  · omega
  · omega
  · rw [Bool.not_eq_true', ← Bool.not_eq_true, Nat.beq_eq] at hparity
    rw [htwo] at hstep'
    rcases heven with heven | hsingle
    · rw [heven] at hstep
      omega
    · omega

def lowest (runs : List CaseRun) : Nat :=
  runs.foldr (fun run low => Nat.min run.first low) 0x110000

def highest (runs : List CaseRun) : Nat :=
  runs.foldr (fun run high => Nat.max run.last high) 0

theorem lowest_le {run : CaseRun} {runs : List CaseRun} (h : run ∈ runs) :
    lowest runs ≤ run.first := by
  induction runs with
  | nil => cases h
  | cons first rest ih =>
      rcases List.mem_cons.mp h with rfl | hrest
      · exact Nat.min_le_left _ _
      · exact Nat.le_trans (Nat.min_le_right _ _) (ih hrest)

theorem le_highest {run : CaseRun} {runs : List CaseRun} (h : run ∈ runs) :
    run.last ≤ highest runs := by
  induction runs with
  | nil => cases h
  | cons first rest ih =>
      rcases List.mem_cons.mp h with rfl | hrest
      · exact Nat.le_max_left _ _
      · exact Nat.le_trans (ih hrest) (Nat.le_max_right _ _)

/-- Whether the replacements of a run can be seen to be left alone by other
runs, at best without a look at each of them. -/
def CaseRun.avoidsAll (run : CaseRun) (runs : List CaseRun) : Bool :=
  Nat.blt (run.upper + (run.last - run.first)) (lowest runs) ||
    Nat.blt (highest runs) run.upper || runs.all run.avoids

theorem all_avoids_of_avoidsAll {run : CaseRun} {runs : List CaseRun}
    (h : run.avoidsAll runs = true) : runs.all run.avoids = true := by
  simp only [CaseRun.avoidsAll, Bool.or_eq_true, Nat.blt_eq] at h
  rcases h with (hbelow | habove) | heach
  · rw [List.all_eq_true]
    intro other hother
    have hlow := lowest_le hother
    simp only [CaseRun.avoids, Bool.or_eq_true, Nat.blt_eq]
    exact Or.inl (Or.inl (by omega))
  · rw [List.all_eq_true]
    intro other hother
    have hhigh := le_highest hother
    simp only [CaseRun.avoids, Bool.or_eq_true, Nat.blt_eq]
    exact Or.inl (Or.inr (by omega))
  · exact heach

def groups : Nat -> List CaseRun -> List (List CaseRun)
  | 0, runs => [runs]
  | n + 1, runs => runs.take 16 :: groups n (runs.drop 16)

theorem flatten_groups (n : Nat) (runs : List CaseRun) :
    (groups n runs).flatten = runs := by
  induction n generalizing runs with
  | zero => exact List.flatten_singleton
  | succ n ih => rw [groups, List.flatten_cons, ih, List.take_append_drop]

theorem all_avoids_of_groups {run : CaseRun} (n : Nat)
    (h : (groups n allRuns).all run.avoidsAll = true) :
    allRuns.all run.avoids = true := by
  rw [← flatten_groups n allRuns, List.all_flatten, List.all_eq_true]
  intro group hgroup
  exact all_avoids_of_avoidsAll (List.all_eq_true.mp h group hgroup)

theorem avoids_shifts :
    shifts.all (fun run => allRuns.all run.avoids) = true := by
  -- A run and its replacements are far from most groups, so few pairs of runs
  -- are left to compare.
  have hgroups :
      shifts.all (fun run => (groups 19 allRuns).all run.avoidsAll) = true := by
    decide +kernel
  rw [List.all_eq_true] at hgroups ⊢
  exact fun run hrun => all_avoids_of_groups 19 (hgroups run hrun)

theorem avoids_expansions :
    expansions.all
      (fun entry =>
        entry.2.all (fun code =>
          allRuns.all (CaseRun.avoids ⟨code, code, 2, code⟩))) = true := by
  have hgroups :
      expansions.all
        (fun entry =>
          entry.2.all (fun code =>
            (groups 19 allRuns).all
              (CaseRun.avoidsAll ⟨code, code, 2, code⟩))) = true := by
    decide +kernel
  rw [List.all_eq_true] at hgroups ⊢
  intro entry hentry
  have hcodes := hgroups entry hentry
  rw [List.all_eq_true] at hcodes ⊢
  exact fun code hcode => all_avoids_of_groups 19 (hcodes code hcode)

theorem isFixed_of_avoids {run : CaseRun} {code : Nat}
    (havoids : allRuns.all run.avoids = true)
    (hcovers : run.covers code = true) :
    isFixed (run.upper + (code - run.first)) = true := by
  rw [isFixed, List.all_eq_true]
  intro other hother
  rw [Bool.not_eq_true']
  exact not_covers_of_avoids (List.all_eq_true.mp havoids other hother) hcovers

theorem isFixed_of_entry {entry : Nat × List Nat} {code : Nat}
    (hentry : entry ∈ expansions) (hcode : code ∈ entry.2) :
    isFixed code = true := by
  have havoids :=
    List.all_eq_true.mp
      (List.all_eq_true.mp avoids_expansions entry hentry) code hcode
  have hcovers : (⟨code, code, 2, code⟩ : CaseRun).covers code = true :=
    covers_iff.mpr ⟨Nat.le_refl _, Nat.le_refl _, by
      rw [Nat.sub_self, Nat.zero_mod]⟩
  have hfixed := isFixed_of_avoids havoids hcovers
  rw [Nat.sub_self, Nat.add_zero] at hfixed
  exact hfixed

theorem not_covers_of_isFixed {code : Nat} {run : CaseRun}
    (h : isFixed code = true) (hrun : run ∈ allRuns) :
    run.covers code = false := by
  have hnot := List.all_eq_true.mp h run hrun
  rw [Bool.not_eq_true'] at hnot
  exact hnot

theorem upperChar_of_isFixed {c : Char} (h : isFixed c.toNat = true) :
    upperChar c = [c] := by
  unfold upperChar
  split
  · have hascii := not_covers_of_isFixed h List.mem_cons_self
    unfold Char.toUpper
    split
    · rename_i hsmall
      have hlow : 0x61 ≤ c.toNat := hsmall.1
      have hhigh : c.toNat ≤ 0x7A := hsmall.2
      rw [covers_iff.mpr ⟨hlow, hhigh, Nat.mod_one _⟩] at hascii
      cases hascii
    · rfl
  · have hlookup : expansions.lookup c.toNat = none := by
      rw [List.lookup_eq_none_iff]
      intro entry hentry
      rw [bne_iff_ne]
      intro hcode
      have hrun : (⟨entry.1, entry.1, 2, 0⟩ : CaseRun) ∈ allRuns :=
        List.mem_cons_of_mem
          _ (List.mem_append_left _ (List.mem_map.mpr ⟨entry, hentry, rfl⟩))
      have hnot := not_covers_of_isFixed h hrun
      rw [hcode, covers_iff.mpr ⟨Nat.le_refl _, Nat.le_refl _, by
        rw [Nat.sub_self, Nat.zero_mod]⟩] at hnot
      cases hnot
    have hfind : shifts.find? (fun run => run.covers c.toNat) = none := by
      rw [List.find?_eq_none]
      intro run hrun hcovers
      rw [not_covers_of_isFixed h
        (List.mem_cons_of_mem _ (List.mem_append_right _ hrun))] at hcovers
      cases hcovers
    simp only [hlookup, hfind]

theorem upperChar_ofNat {code : Nat} (h : isFixed code = true) :
    upperChar (Char.ofNat code) = [Char.ofNat code] := by
  apply upperChar_of_isFixed
  by_cases hvalid : code.isValidChar
  · rw [Char.ofNat, dif_pos hvalid]
    exact h
  · rw [Char.ofNat, dif_neg hvalid]
    decide +kernel

theorem flatMap_upperChar {codes : List Nat}
    (h : forall code, code ∈ codes -> isFixed code = true) :
    (codes.map Char.ofNat).flatMap upperChar = codes.map Char.ofNat := by
  induction codes with
  | nil => rfl
  | cons code codes ih =>
      rw [List.map_cons, List.flatMap_cons,
        upperChar_ofNat (h code List.mem_cons_self),
        ih (fun x hx => h x (List.mem_cons_of_mem _ hx))]
      rfl

theorem upperChar_toUpper {c : Char} (h : c.toNat < 0x80) :
    upperChar c.toUpper = [c.toUpper] := by
  have hascii : forall n, n < 128 ->
      (Char.ofNat n).toUpper.toNat < 0x80 ∧
        (Char.ofNat n).toUpper.toUpper = (Char.ofNat n).toUpper := by
    decide
  have hc := hascii c.toNat h
  rw [Char.ofNat_toNat] at hc
  rw [upperChar, if_pos hc.1, hc.2]

theorem upperChar_upperChar (c : Char) :
    (upperChar c).flatMap upperChar = upperChar c := by
  have hsingle : forall {d : Char}, upperChar d = [d] ->
      [d].flatMap upperChar = [d] := by
    intro d hd
    rw [List.flatMap_singleton, hd]
  by_cases hascii : c.toNat < 0x80
  · have hupper : upperChar c = [c.toUpper] := by
      rw [upperChar, if_pos hascii]
    rw [hupper]
    exact hsingle (upperChar_toUpper hascii)
  · cases hlookup : expansions.lookup c.toNat with
    | some codes =>
        rcases List.lookup_eq_some_iff.mp hlookup with
          ⟨before, after, htable, _⟩
        have hentry : (c.toNat, codes) ∈ expansions := by
          rw [htable]
          exact List.mem_append_right _ List.mem_cons_self
        have hupper : upperChar c = codes.map Char.ofNat := by
          rw [upperChar, if_neg hascii]
          simp only [hlookup]
        rw [hupper]
        exact flatMap_upperChar
          (fun code hcode => isFixed_of_entry hentry hcode)
    | none =>
        cases hfind : shifts.find? (fun run => run.covers c.toNat) with
        | some run =>
            have hcovers : run.covers c.toNat = true :=
              List.find?_some
                (p := fun run : CaseRun => run.covers c.toNat) hfind
            have hupper : upperChar c =
                [Char.ofNat (run.upper + (c.toNat - run.first))] := by
              rw [upperChar, if_neg hascii]
              simp only [hlookup, hfind]
            rw [hupper]
            have havoids :=
              List.all_eq_true.mp avoids_shifts run
                (List.mem_of_find?_eq_some hfind)
            exact hsingle (upperChar_ofNat (isFixed_of_avoids havoids hcovers))
        | none =>
            have hupper : upperChar c = [c] := by
              rw [upperChar, if_neg hascii]
              simp only [hlookup, hfind]
            rw [hupper]
            exact hsingle hupper

theorem upperCase_upperCase (text : String) :
    upperCase (upperCase text) = upperCase text := by
  unfold upperCase
  rw [String.toList_ofList, List.flatMap_assoc]
  have hsame : (fun c => (upperChar c).flatMap upperChar) = upperChar :=
    funext upperChar_upperChar
  rw [hsame]

end Text
end SlotCluster
