import SlotCluster.Proofs.Address.Spellings

/-!
# Fields of a node listing

What stands in one field of a line is read back from how it is written:
addresses with a bus port and a host name behind them, sets of flags from their
words, and the master or its dash.  Of addresses it is said besides which texts
are none, and what they are refused with.
-/

namespace SlotCluster
namespace Listing

open Text

/-! ## Addresses -/

def IsAddress (text : List Char) : Prop :=
  exists host numeral port, text = host ++ ':' :: numeral ∧ ':' ∉ numeral ∧
    Decimal.Denotes numeral port ∧ port < 65536

/-- The part of a field that is the address: what comes after a comma or an at
sign is not part of it. -/
def addressPart (field : List Char) : List Char :=
  upTo '@' (upTo ',' field)

theorem splitAddress?_eq_none_iff {text : List Char} :
    Endpoint.splitAddress? text = none <-> ¬ IsAddress text := by
  constructor
  · rintro hnone ⟨front, numeral, port, hcut, hlast, hdenotes, hlt⟩
    have hspells :
        Endpoint.Spells text (Endpoint.unbracket front)
          (UInt16.ofNat port) := by
      refine ⟨hcut, hlast, Endpoint.unbracket_eq_iff.mp rfl, ?_⟩
      rw [UInt16.toNat_ofNat_of_lt' hlt]
      exact hdenotes
    rw [Endpoint.splitAddress?_eq_some_iff.mpr hspells] at hnone
    cases hnone
  · intro hbad
    refine Endpoint.splitAddress?_eq_none (fun host port hspells => hbad ?_)
    rcases hspells with ⟨hcut, hlast, _, hnumber⟩
    exact ⟨_, _, _, hcut, hlast, hnumber, port.toNat_lt⟩

theorem parseAddress_eq_error_iff {field : List Char} {queried : Endpoint}
    {e : TopologyError} :
    parseAddress field queried = .error e <->
      ¬ IsAddress (addressPart field) ∧
        e = .invalidEndpoint (String.ofList field) := by
  rw [← splitAddress?_eq_none_iff]
  unfold parseAddress addressPart
  cases Endpoint.splitAddress? (upTo '@' (upTo ',' field)) with
  | none =>
      simp only [Except.error.injEq, true_and]
      exact eq_comm
  | some parts => simp

theorem exists_parseAddress_iff {field : List Char} {queried : Endpoint} :
    (exists endpoint, parseAddress field queried = .ok endpoint) <->
      IsAddress (addressPart field) := by
  constructor
  · rintro ⟨endpoint, hread⟩
    by_contra hbad
    rw [parseAddress_eq_error_iff.mpr ⟨hbad, rfl⟩] at hread
    cases hread
  · intro hgood
    cases hread : parseAddress field queried with
    | ok endpoint => exact ⟨endpoint, rfl⟩
    | error e => exact absurd hgood (parseAddress_eq_error_iff.mp hread).1

theorem addressPart_append {address : List Char} (hcomma : ',' ∉ address)
    (hat : '@' ∉ address) (more : List Char) :
    addressPart (address ++ '@' :: more) = address := by
  have hbefore :
      upTo ',' (address ++ '@' :: more) = address ++ '@' :: upTo ',' more := by
    have haddress := upTo_of_not_mem hcomma
    unfold upTo at haddress ⊢
    rw [List.takeWhile_append, haddress, if_pos rfl]
    rfl
  unfold addressPart
  rw [hbefore, upTo_append hat]

theorem parseAddress_of_parts {field host : List Char} {port : UInt16}
    (queried : Endpoint)
    (hpart : addressPart field = host ++ ':' :: Decimal.digits port.toNat)
    (hhost : host ≠ []) (hfirst : host.head? ≠ some '[')
    (hlast : host.getLast? ≠ some ']') :
    parseAddress field queried =
      .ok { host := String.ofList host, port, timeout := queried.timeout } := by
  have hsplit :=
    Endpoint.splitAddress?_eq_some_iff.mpr
      (Endpoint.spells_of_parts hfirst hlast port)
  rw [← hpart] at hsplit
  unfold addressPart at hsplit
  unfold parseAddress
  rw [hsplit]
  simp only [List.isEmpty_iff, if_neg hhost]

/-! ## Flags -/

theorem ofWord?_word (f : Flag) : Flag.ofWord? f.word = some f := by
  cases f <;> rfl

theorem comma_not_mem_word (f : Flag) : ',' ∉ f.word.toList := by
  cases f <;> decide

theorem parseFlags_flagText (n : Node) :
    parseFlags n.flagText.toList = n.flags := by
  unfold parseFlags Node.flagText
  split
  · rename_i hempty
    have hnone : n.flags.toList = [] := List.isEmpty_iff.mp hempty
    rw [← FlagSet.ofList_toList n.flags, hnone]
    decide
  · rename_i hsome
    have hwords : (n.flags.toList.map Flag.word).map String.toList ≠ [] := by
      intro hnil
      rw [List.map_eq_nil_iff, List.map_eq_nil_iff] at hnil
      exact hsome (List.isEmpty_iff.mpr hnil)
    have hpieces : forall piece,
        piece ∈ (n.flags.toList.map Flag.word).map String.toList ->
        ',' ∉ piece := by
      intro piece hpiece
      rw [List.map_map] at hpiece
      rcases List.mem_map.mp hpiece with ⟨f, _, rfl⟩
      exact comma_not_mem_word f
    have hflags : ((n.flags.toList.map Flag.word).map String.toList).filterMap
        (fun word => Flag.ofWord? (String.ofList word)) = n.flags.toList := by
      rw [List.map_map, List.filterMap_map]
      have hread :
          ((fun word => Flag.ofWord? (String.ofList word)) ∘ String.toList ∘
            Flag.word) = some := by
        funext f
        rw [Function.comp_apply, Function.comp_apply, String.ofList_toList,
          ofWord?_word]
      rw [hread, List.filterMap_some]
    have hsplit :
        splitAll ',' (joinTexts "," (n.flags.toList.map Flag.word)).toList =
          (n.flags.toList.map Flag.word).map String.toList := by
      rw [joinTexts, String.toList_ofList]
      exact splitAll_joinWith hwords hpieces
    rw [hsplit, hflags, FlagSet.ofList_toList]

end Listing
end SlotCluster
