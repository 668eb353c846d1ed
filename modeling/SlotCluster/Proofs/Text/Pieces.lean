import Mathlib.Data.List.TakeWhile
import SlotCluster.Text.Blank

/-!
# Text put together and cut again

Pieces that do not hold the separator are cut apart exactly where they were
joined.  A character is trimmed from an end as often as it stands there.  Words
are cut apart at white space: fields with a space between neighbours are the
words of their line, and white space around a line belongs to no word.
-/

namespace SlotCluster
namespace Text

variable {separator : Char}

/-! ## At a separator -/

theorem splitFirst_eq_some_iff {text front back : List Char} :
    splitFirst separator text = some (front, back) <->
      text = front ++ separator :: back ∧ separator ∉ front := by
  induction text generalizing front with
  | nil => simp [splitFirst]
  | cons c rest ih =>
      rw [splitFirst]
      by_cases hc : c = separator
      · rw [if_pos hc, hc]
        constructor
        · intro h
          cases h
          exact ⟨rfl, List.not_mem_nil⟩
        · rintro ⟨htext, hfront⟩
          cases front with
          | nil =>
              cases htext
              rfl
          | cons d front =>
              cases htext
              exact absurd List.mem_cons_self hfront
      · rw [if_neg hc, Option.map_eq_some_iff]
        constructor
        · rintro ⟨⟨front', back'⟩, hsplit, heq⟩
          cases heq
          rcases ih.mp hsplit with ⟨htext, hfront⟩
          refine ⟨congrArg (c :: ·) htext, ?_⟩
          rw [List.mem_cons, not_or]
          exact ⟨Ne.symm hc, hfront⟩
        · rintro ⟨htext, hfront⟩
          cases front with
          | nil =>
              cases htext
              exact absurd rfl hc
          | cons d front =>
              cases htext
              rw [List.mem_cons, not_or] at hfront
              exact ⟨(front, back), ih.mpr ⟨rfl, hfront.2⟩, rfl⟩

theorem splitFirst_eq_none_iff {text : List Char} :
    splitFirst separator text = none <-> separator ∉ text := by
  induction text with
  | nil => simp [splitFirst]
  | cons c rest ih =>
      rw [splitFirst, List.mem_cons, not_or]
      by_cases hc : c = separator
      · simp [hc]
      · rw [if_neg hc, Option.map_eq_none_iff, ih]
        exact (and_iff_right (Ne.symm hc)).symm

theorem splitLast_eq_none_iff {text : List Char} :
    splitLast separator text = none <-> separator ∉ text := by
  induction text with
  | nil => simp [splitLast]
  | cons c rest ih =>
      rw [splitLast, List.mem_cons, not_or]
      cases hrest : splitLast separator rest with
      | some parts =>
          have hmem : ¬ separator ∉ rest := by
            rw [← ih, hrest]
            exact Option.some_ne_none parts
          simp [hmem]
      | none =>
          rw [and_iff_left (ih.mp hrest)]
          by_cases hc : c = separator
          · simp [hc]
          · simp [hc, Ne.symm hc]

theorem splitLast_eq_some_iff {text front back : List Char} :
    splitLast separator text = some (front, back) <->
      text = front ++ separator :: back ∧ separator ∉ back := by
  induction text generalizing front with
  | nil => simp [splitLast]
  | cons c rest ih =>
      rw [splitLast]
      cases hrest : splitLast separator rest with
      | some parts =>
          rcases parts with ⟨front', back'⟩
          constructor
          · intro h
            cases h
            have htail := ih.mp hrest
            exact ⟨congrArg (c :: ·) htail.1, htail.2⟩
          · rintro ⟨htext, hback⟩
            cases front with
            | nil =>
                -- Then the separator in the rest would stand in `back`.
                cases htext
                rw [splitLast_eq_none_iff.mpr hback] at hrest
                cases hrest
            | cons d front =>
                cases htext
                rw [ih.mpr ⟨rfl, hback⟩] at hrest
                cases hrest
                rfl
      | none =>
          have hnot := splitLast_eq_none_iff.mp hrest
          constructor
          · intro h
            by_cases hc : c = separator
            · rw [if_pos hc] at h
              cases h
              exact ⟨by rw [hc]; rfl, hnot⟩
            · rw [if_neg hc] at h
              cases h
          · rintro ⟨htext, _⟩
            cases front with
            | nil =>
                cases htext
                exact if_pos rfl
            | cons d front =>
                cases htext
                exact absurd
                  (List.mem_append_right front List.mem_cons_self) hnot

theorem splitAll_of_not_mem {piece : List Char} (h : separator ∉ piece) :
    splitAll separator piece = [piece] := by
  induction piece with
  | nil => rfl
  | cons c rest ih =>
      rw [List.mem_cons, not_or] at h
      rw [splitAll, if_neg (Ne.symm h.1), ih h.2]

theorem splitAll_append {piece : List Char} (h : separator ∉ piece)
    (rest : List Char) :
    splitAll separator (piece ++ separator :: rest) = piece ::
      splitAll separator rest := by
  induction piece with
  | nil => exact if_pos rfl
  | cons c piece ih =>
      rw [List.mem_cons, not_or] at h
      rw [List.cons_append, splitAll, if_neg (Ne.symm h.1), ih h.2]

theorem splitAll_joinWith {pieces : List (List Char)} (hne : pieces ≠ [])
    (h : forall piece, piece ∈ pieces -> separator ∉ piece) :
    splitAll separator (joinWith [separator] pieces) = pieces := by
  induction pieces with
  | nil => exact absurd rfl hne
  | cons piece rest ih =>
      have hpiece := h piece List.mem_cons_self
      cases rest with
      | nil => exact splitAll_of_not_mem hpiece
      | cons next rest =>
          have hrest :=
            ih (List.cons_ne_nil _ _)
              (fun other hother => h other (List.mem_cons_of_mem _ hother))
          rw [joinWith, List.append_assoc, List.singleton_append,
            splitAll_append hpiece, hrest]
          exact List.cons_ne_nil _ _

theorem mem_joinWith {pieces : List (List Char)} {between : List Char}
    {c : Char} (h : c ∈ joinWith between pieces) :
    c ∈ between ∨ exists piece, piece ∈ pieces ∧ c ∈ piece := by
  induction pieces with
  | nil => cases h
  | cons piece rest ih =>
      cases rest with
      | nil => exact Or.inr ⟨piece, List.mem_cons_self, h⟩
      | cons next rest =>
          have hcut : joinWith between (piece :: next :: rest) =
              piece ++ between ++ joinWith between (next :: rest) := rfl
          rw [hcut, List.mem_append, List.mem_append] at h
          rcases h with (hpiece | hbetween) | hrest
          · exact Or.inr ⟨piece, List.mem_cons_self, hpiece⟩
          · exact Or.inl hbetween
          · rcases ih hrest with hbetween | ⟨other, hother, hc⟩
            · exact Or.inl hbetween
            · exact Or.inr ⟨other, List.mem_cons_of_mem piece hother, hc⟩

theorem upTo_of_not_mem {text : List Char} (h : separator ∉ text) :
    upTo separator text = text := by
  unfold upTo
  rw [List.takeWhile_eq_self_iff]
  intro c hc
  rw [decide_eq_true_eq]
  exact fun hsame => h (hsame ▸ hc)

theorem upTo_append {front : List Char} (h : separator ∉ front)
    (rest : List Char) :
    upTo separator (front ++ separator :: rest) = front := by
  have hfront := upTo_of_not_mem h
  unfold upTo at hfront ⊢
  rw [List.takeWhile_append, hfront, if_pos rfl,
    List.takeWhile_cons_of_neg (by simp), List.append_nil]

/-! ## At the ends -/

theorem trimLeft_eq_iff {c : Char} {text rest : List Char} :
    trimLeft (fun d => d == c) text = rest <->
      (exists n, text = List.replicate n c ++ rest) ∧ rest.head? ≠ some c := by
  induction text with
  | nil =>
      constructor
      · intro h
        cases h
        exact ⟨⟨0, rfl⟩, nofun⟩
      · rintro ⟨⟨n, h⟩, _⟩
        exact (List.append_eq_nil_iff.mp h.symm).2.symm
  | cons d text ih =>
      by_cases hd : d = c
      · have hdrop : trimLeft (fun d => d == c) (d :: text) =
            trimLeft (fun d => d == c) text :=
          List.dropWhile_cons_of_pos (beq_iff_eq.mpr hd)
        rw [hdrop, hd]
        refine ih.trans (and_congr_left ?_)
        intro hrest
        constructor
        · rintro ⟨n, htext⟩
          exact ⟨n + 1, congrArg (c :: ·) htext⟩
        · rintro ⟨n, htext⟩
          cases n with
          | zero => exact absurd (congrArg List.head? htext).symm hrest
          | succ n => exact ⟨n, List.tail_eq_of_cons_eq htext⟩
      · have hkept : trimLeft (fun d => d == c) (d :: text) = d :: text :=
          List.dropWhile_cons_of_neg (fun hdrop => hd (beq_iff_eq.mp hdrop))
        rw [hkept]
        constructor
        · rintro rfl
          exact ⟨⟨0, rfl⟩, fun hhead => hd (Option.some.inj hhead)⟩
        · rintro ⟨⟨n, htext⟩, _⟩
          cases n with
          | zero => exact htext
          | succ n => exact absurd (List.head_eq_of_cons_eq htext) hd

theorem trimRight_eq_iff {c : Char} {text rest : List Char} :
    trimRight (fun d => d == c) text = rest <->
      (exists n, text = rest ++ List.replicate n c) ∧
        rest.getLast? ≠ some c := by
  have hreverse (n : Nat) : text.reverse = List.replicate n c ++
      rest.reverse <-> text = rest ++ List.replicate n c := by
    rw [List.reverse_eq_iff, List.reverse_append, List.reverse_reverse,
      List.reverse_replicate]
  rw [trimRight, List.reverse_eq_iff, ← List.head?_reverse]
  exact trimLeft_eq_iff.trans (and_congr_left' (exists_congr hreverse))

/-! ## Words -/

structure IsWord (text : List Char) : Prop where
  nonempty : text ≠ []
  solid : forall c, c ∈ text -> isBlank c = false

instance (text : List Char) : Decidable (IsWord text) :=
  decidable_of_iff (text ≠ [] ∧ text.all (fun c => isBlank c == false) = true)
    ⟨fun h => ⟨h.1, fun c hc => eq_of_beq (List.all_eq_true.mp h.2 c hc)⟩,
      fun h =>
        ⟨h.nonempty,
          List.all_eq_true.mpr (fun c hc => beq_iff_eq.mpr (h.solid c hc))⟩⟩

def IsSpace (text : List Char) : Prop :=
  forall c, c ∈ text -> isBlank c = true

instance (text : List Char) : Decidable (IsSpace text) :=
  decidable_of_iff (text.all isBlank = true) List.all_eq_true

theorem wordsFrom_append {solid : List Char}
    (h : forall c, c ∈ solid -> isBlank c = false) (word rest : List Char) :
    wordsFrom word (solid ++ rest) =
      wordsFrom (solid.reverse ++ word) rest := by
  induction solid generalizing word with
  | nil => rfl
  | cons c solid ih =>
      rw [List.cons_append, wordsFrom, h c List.mem_cons_self]
      rw [if_neg Bool.false_ne_true,
        ih (fun d hd => h d (List.mem_cons_of_mem c hd)), List.reverse_cons,
        List.append_assoc, List.singleton_append]

theorem words_cons_of_isBlank {c : Char} (h : isBlank c = true)
    (rest : List Char) : words (c :: rest) = words rest := by
  unfold words
  rw [wordsFrom, if_pos h]
  rfl

theorem words_append_cons {word : List Char} (hword : IsWord word) {c : Char}
    (hc : isBlank c = true) (rest : List Char) :
    words (word ++ c :: rest) = word :: words rest := by
  have hne : word.reverse.isEmpty = false := by
    rw [List.isEmpty_eq_false_iff, ne_eq, List.reverse_eq_nil_iff]
    exact hword.nonempty
  unfold words
  rw [wordsFrom_append hword.solid, List.append_nil, wordsFrom, if_pos hc, hne,
    if_neg Bool.false_ne_true, List.reverse_reverse]

theorem words_of_isWord {word : List Char} (h : IsWord word) :
    words word = [word] := by
  have hne : word.reverse.isEmpty = false := by
    rw [List.isEmpty_eq_false_iff, ne_eq, List.reverse_eq_nil_iff]
    exact h.nonempty
  have happend := wordsFrom_append h.solid [] []
  rw [List.append_nil, List.append_nil] at happend
  unfold words
  rw [happend, wordsFrom, hne, if_neg Bool.false_ne_true, List.reverse_reverse]

theorem words_joinWith {fields : List (List Char)}
    (h : forall field, field ∈ fields -> IsWord field) :
    words (joinWith [' '] fields) = fields := by
  induction fields with
  | nil => rfl
  | cons field rest ih =>
      have hfield := h field List.mem_cons_self
      cases rest with
      | nil => exact words_of_isWord hfield
      | cons next rest =>
          have hrest :=
            ih (fun other hother => h other (List.mem_cons_of_mem _ hother))
          rw [joinWith, List.append_assoc, List.singleton_append,
            words_append_cons hfield (by decide), hrest]
          exact List.cons_ne_nil _ _

theorem words_space_append {space : List Char} (h : IsSpace space)
    (rest : List Char) : words (space ++ rest) = words rest := by
  induction space with
  | nil => rfl
  | cons c space ih =>
      rw [List.cons_append, words_cons_of_isBlank (h c List.mem_cons_self)]
      exact ih (fun d hd => h d (List.mem_cons_of_mem c hd))

theorem words_of_isSpace {space : List Char} (h : IsSpace space) :
    words space = [] := by
  have happend := words_space_append h []
  rw [List.append_nil] at happend
  exact happend

theorem wordsFrom_append_space {space : List Char} (h : IsSpace space)
    (word text : List Char) :
    wordsFrom word (text ++ space) = wordsFrom word text := by
  induction text generalizing word with
  | nil =>
      cases space with
      | nil => rfl
      | cons c space =>
          have hspace :=
            words_of_isSpace (fun d hd => h d (List.mem_cons_of_mem c hd))
          rw [List.nil_append, wordsFrom, wordsFrom,
            if_pos (h c List.mem_cons_self)]
          unfold words at hspace
          rw [hspace]
  | cons c text ih =>
      rw [List.cons_append, wordsFrom, wordsFrom, ih, ih]

theorem words_append_space {space : List Char} (h : IsSpace space)
    (text : List Char) : words (text ++ space) = words text :=
  wordsFrom_append_space h [] text

/-! ## White space around a text -/

theorem exists_trim (text : List Char) :
    exists before after,
      IsSpace before ∧ IsSpace after ∧ text = before ++ trim text ++ after := by
  refine ⟨text.takeWhile isBlank,
    ((trimLeft isBlank text).reverse.takeWhile isBlank).reverse, ?_, ?_, ?_⟩
  · intro c hc
    exact List.mem_takeWhile_imp hc
  · intro c hc
    exact List.mem_takeWhile_imp (List.mem_reverse.mp hc)
  · have hright :
        trim text ++
          ((trimLeft isBlank text).reverse.takeWhile isBlank).reverse =
          trimLeft isBlank text := by
      unfold trim trimRight
      rw [← List.reverse_append, List.takeWhile_append_dropWhile,
        List.reverse_reverse]
    rw [List.append_assoc, hright]
    exact List.takeWhile_append_dropWhile.symm

theorem words_trim (text : List Char) : words (trim text) = words text := by
  rcases exists_trim text with ⟨before, after, hbefore, hafter, htext⟩
  have hwords : words text = words (before ++ trim text ++ after) :=
    congrArg words htext
  rw [hwords, words_append_space hafter, words_space_append hbefore]

theorem trim_of_isSpace {text : List Char} (h : IsSpace text) :
    trim text = [] := by
  have hleft : trimLeft isBlank text = [] := List.dropWhile_eq_nil_iff.mpr h
  unfold trim
  rw [hleft]
  rfl

theorem trim_ne_nil {text : List Char} (h : words text ≠ []) :
    trim text ≠ [] := by
  intro hnil
  rw [← words_trim, hnil] at h
  exact h rfl

end Text
end SlotCluster
