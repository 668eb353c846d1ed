import SlotCluster.Proofs.Topology.Listings
import SlotCluster.Proofs.Topology.Ownership

/-!
# Tables of listings

A listing that can be read has a table unless two lines of masters list the same
slot.  Nothing else can be wrong with it: what the reader lets through as a
range is not empty and lies within the keyspace.  Who owns a slot is said here
by the words of the lines, so it needs neither the nodes nor the scan that
builds the table.
-/

namespace SlotCluster
namespace Listing

open Text

variable {text : String} {queried : Endpoint} {nodes : List Node} {n : Node}
  {line : List Char} {i slot : Nat}

/-! ## What lines say about slots -/

def FlagsMaster (line : List Char) : Prop :=
  exists field,
    (words line)[2]? = some field ∧ "master".toList ∈ splitAll ',' field

/-- One of the slot tokens names the slot, alone or between two bounds.  Tokens
in brackets name nothing. -/
def NamesSlot (line : List Char) (slot : Nat) : Prop :=
  exists token first last, token ∈ (words line).drop 8 ∧ ¬ IsMoving token ∧
    Names token first last ∧ first.toNat ≤ slot ∧ slot ≤ last.toNat

def idOf (line : List Char) : String :=
  String.ofList ((words line).headD [])

/-- Among the lines that are not blank, the one at a position is of a master and
names the slot. -/
structure MasterLine (text : String) (i : Nat) (line : List Char)
    (slot : Nat) : Prop where
  found : (linesOf text.toList)[i]? = some line
  master : FlagsMaster line
  names : NamesSlot line slot

/-! ## What lines are read as -/

theorem map_getElem?_of_mapM {α β ε : Type} {f : α -> Except ε β}
    {items : List α} {values : List β} (h : items.mapM f = .ok values)
    (i : Nat) : items[i]?.map f = values[i]?.map .ok := by
  induction items generalizing values i with
  | nil =>
      cases h
      rfl
  | cons first rest ih =>
      rw [List.mapM_cons] at h
      cases hfirst : f first with
      | error e =>
          rw [hfirst] at h
          cases h
      | ok value =>
          cases hrest : rest.mapM f with
          | error e =>
              rw [hfirst, hrest] at h
              cases h
          | ok tail =>
              rw [hfirst, hrest] at h
              cases h
              cases i with
              | zero => exact congrArg some hfirst
              | succ i => exact ih hrest i

theorem getElem?_of_mapM {α β ε : Type} {f : α -> Except ε β} {items : List α}
    {values : List β} (h : items.mapM f = .ok values) {i : Nat} {v : β} :
    values[i]? = some v <->
      exists item, items[i]? = some item ∧ f item = .ok v := by
  have hmap : values[i]?.map Except.ok = some (Except.ok v : Except ε β) <->
      items[i]?.map f = some (.ok v) := by
    rw [map_getElem?_of_mapM h i]
  simpa using hmap

theorem mem_of_mapM {α β ε : Type} {f : α -> Except ε β} {items : List α}
    {values : List β} (h : items.mapM f = .ok values) {v : β} :
    v ∈ values <-> exists item, item ∈ items ∧ f item = .ok v := by
  simp only [List.mem_iff_getElem?, getElem?_of_mapM h]
  constructor
  · rintro ⟨i, item, hitem, hv⟩
    exact ⟨item, ⟨i, hitem⟩, hv⟩
  · rintro ⟨item, ⟨i, hitem⟩, hv⟩
    exact ⟨i, item, hitem, hv⟩

theorem exists_ok_of_mapM {α β ε : Type} {f : α -> Except ε β} {items : List α}
    {values : List β} (h : items.mapM f = .ok values) {item : α}
    (hitem : item ∈ items) : exists v, f item = .ok v := by
  rcases List.mem_iff_getElem?.mp hitem with ⟨i, hi⟩
  have hmap := map_getElem?_of_mapM h i
  rw [hi, Option.map_some, eq_comm, Option.map_eq_some_iff] at hmap
  rcases hmap with ⟨v, _, hv⟩
  exact ⟨v, hv.symm⟩

theorem fields_of_parseLine (h : parseLine queried line = .ok n) :
    exists id address flags rest, words line = id :: address :: flags :: rest ∧
      n.id = String.ofList id ∧
      n.flags = parseFlags flags ∧
        parseRanges ((words line).drop 8) = .ok n.slots := by
  unfold parseLine at h
  split at h
  · rename_i id address flags master ping pong epoch link slots hwords
    split at h
    · cases h
    · split at h
      · cases h
      · rename_i ranges hranges
        cases h
        refine ⟨id, address, flags, _, hwords, rfl, rfl, ?_⟩
        rw [hwords]
        exact hranges
  · cases h

theorem id_of_parseLine (h : parseLine queried line = .ok n) :
    n.id = idOf line := by
  rcases fields_of_parseLine h with ⟨id, _, _, _, hwords, hid, _, _⟩
  rw [hid, idOf, hwords]
  rfl

theorem ofWord?_eq_master {word : String} :
    Flag.ofWord? word = some .master <-> word = "master" := by
  constructor
  · intro h
    unfold Flag.ofWord? at h
    split at h
    · cases h
    · have hword := List.find?_some h
      exact (of_decide_eq_true hword).symm
  · rintro rfl
    exact ofWord?_word .master

theorem has_master_parseFlags {field : List Char} :
    (parseFlags field).has .master = true <->
      "master".toList ∈ splitAll ',' field := by
  unfold parseFlags
  rw [FlagSet.has_ofList, decide_eq_true_eq, List.mem_filterMap]
  constructor
  · rintro ⟨word, hword, hmaster⟩
    rw [ofWord?_eq_master] at hmaster
    rw [← hmaster, String.toList_ofList]
    exact hword
  · intro hword
    exact ⟨_, hword, ofWord?_eq_master.mpr String.ofList_toList⟩

theorem isMaster_of_parseLine (h : parseLine queried line = .ok n) :
    n.isMaster = true <-> FlagsMaster line := by
  rcases fields_of_parseLine h with
    ⟨id, address, flags, rest, hwords, _, hflags, _⟩
  unfold Node.isMaster FlagsMaster
  rw [hflags, has_master_parseFlags, hwords]
  constructor
  · intro hmaster
    exact ⟨flags, rfl, hmaster⟩
  · rintro ⟨field, hfield, hmaster⟩
    cases hfield
    exact hmaster

theorem mem_slots_of_parseLine (h : parseLine queried line = .ok n)
    {r : SlotRange} :
    r ∈ n.slots <->
      exists token, token ∈ (words line).drop 8 ∧ ¬ IsMoving token ∧
        parseSlots token = .ok r := by
  rcases fields_of_parseLine h with ⟨_, _, _, _, _, _, _, hranges⟩
  rw [parseRanges_eq_mapM] at hranges
  rw [mem_of_mapM hranges]
  simp only [List.mem_filter, decide_eq_true_eq, and_assoc]

theorem valid_of_parseLine (h : parseLine queried line = .ok n) {r : SlotRange}
    (hr : r ∈ n.slots) : r.Valid := by
  rcases (mem_slots_of_parseLine h).mp hr with ⟨token, _, _, hparse⟩
  exact valid_of_parseSlots hparse

theorem range_of_names (h : parseLine queried line = .ok n) {token : List Char}
    {first last : UInt32} (htoken : token ∈ (words line).drop 8)
    (hstays : ¬ IsMoving token) (hnames : Names token first last) :
    ⟨first, last + 1⟩ ∈ n.slots ∧ last.toNat < slotCount := by
  rcases fields_of_parseLine h with ⟨_, _, _, _, _, _, _, hranges⟩
  rw [parseRanges_eq_mapM] at hranges
  rcases exists_ok_of_mapM hranges
    (List.mem_filter.mpr ⟨htoken, decide_eq_true hstays⟩) with ⟨r, hparse⟩
  have hread := hparse
  rw [parseSlots_of_names hnames, SlotRange.inclusive_eq] at hread
  split at hread
  · rename_i hbounds
    cases hread
    exact ⟨(mem_slots_of_parseLine h).mpr ⟨token, htoken, hstays, hparse⟩,
      hbounds.2⟩
  · cases hread

/-- A node claims the slots that its line names, if the line is of a master. -/
theorem claims_of_parseLine (h : parseLine queried line = .ok n) :
    n.claims slot = true <-> FlagsMaster line ∧ NamesSlot line slot := by
  unfold Node.claims
  rw [Bool.and_eq_true, isMaster_of_parseLine h, List.any_eq_true]
  refine and_congr_right (fun _ => ⟨?_, ?_⟩)
  · rintro ⟨r, hr, hholds⟩
    rw [decide_eq_true_eq] at hholds
    rcases (mem_slots_of_parseLine h).mp hr with ⟨token, htoken, hstays, hparse⟩
    rcases parseSlots_eq_ok_iff.mp hparse with
      ⟨first, last, hnames, ⟨_, hlast⟩, rfl⟩
    rw [SlotRange.toNat_succ_last hlast] at hholds
    exact ⟨token, first, last, htoken, hstays, hnames, hholds.1,
      Nat.le_of_lt_succ hholds.2⟩
  · rintro ⟨token, first, last, htoken, hstays, hnames, hfirst, hlast⟩
    rcases range_of_names h htoken hstays hnames with ⟨hmember, hbound⟩
    refine ⟨_, hmember, ?_⟩
    rw [decide_eq_true_eq, SlotRange.toNat_succ_last hbound]
    exact ⟨hfirst, Nat.lt_succ_of_le hlast⟩

/-!
## What a text is read as

The nodes stand where their lines stand.  A table is refused only for a slot
that two lines of masters name, and by their ids.
-/

theorem getElem?_of_parse (h : parse text queried = .ok nodes) :
    nodes[i]? = some n <->
      exists line, (linesOf text.toList)[i]? = some line ∧
        parseLine queried line = .ok n := by
  rw [parse, parseLines_eq_mapM] at h
  exact getElem?_of_mapM h

theorem exists_of_line (h : parse text queried = .ok nodes)
    (hline : (linesOf text.toList)[i]? = some line) :
    exists n, parseLine queried line = .ok n ∧ nodes[i]? = some n := by
  have hmap := h
  rw [parse, parseLines_eq_mapM] at hmap
  rcases exists_ok_of_mapM hmap (List.mem_of_getElem? hline) with ⟨n, hn⟩
  exact ⟨n, hn, (getElem?_of_parse h).mpr ⟨line, hline, hn⟩⟩

theorem valid_of_parse (h : parse text queried = .ok nodes) (hn : n ∈ nodes)
    {r : SlotRange} (hr : r ∈ n.slots) : r.Valid := by
  rcases List.mem_iff_getElem?.mp hn with ⟨i, hi⟩
  rcases (getElem?_of_parse h).mp hi with ⟨line, _, hread⟩
  exact valid_of_parseLine hread hr

theorem claims_of_parse (h : parse text queried = .ok nodes) :
    Table.Claims nodes i slot <-> exists line, MasterLine text i line slot := by
  constructor
  · rintro ⟨n, hn, hclaims⟩
    rcases (getElem?_of_parse h).mp hn with ⟨line, hline, hread⟩
    rcases (claims_of_parseLine hread).mp hclaims with ⟨hmaster, hnames⟩
    exact ⟨line, hline, hmaster, hnames⟩
  · rintro ⟨line, hline, hmaster, hnames⟩
    rcases exists_of_line h hline with ⟨n, hread, hn⟩
    exact ⟨n, hn, (claims_of_parseLine hread).mpr ⟨hmaster, hnames⟩⟩

theorem id_of_parse (h : parse text queried = .ok nodes)
    (hn : nodes[i]? = some n) (hline : (linesOf text.toList)[i]? = some line) :
    n.id = idOf line := by
  rcases (getElem?_of_parse h).mp hn with ⟨read, hread, hparsed⟩
  cases hline.symm.trans hread
  exact id_of_parseLine hparsed

theorem conflict_of_build (h : parse text queried = .ok nodes)
    {e : TopologyError} (hbuild : Table.build nodes = .error e) :
    exists i j line other slot, i < j ∧ MasterLine text i line slot ∧
      MasterLine text j other slot ∧
      e = .slotConflict slot (idOf line) (idOf other) := by
  rcases Table.firstOffence_of_build hbuild with ⟨place, hoffence, _⟩
  cases hoffence with
  | range found invalid =>
      rcases found with ⟨hn, _, hr⟩
      exact absurd
        (valid_of_parse h (List.mem_of_getElem? hn) (List.mem_of_getElem? hr))
        invalid
  | @slot i j k slot n m r found holds earlier other claims =>
      rcases (claims_of_parse h).mp ⟨m, other, claims⟩ with ⟨line, hline⟩
      rcases (claims_of_parse h).mp
        (Table.claims_iff.mpr ⟨j, n, r, found, holds⟩) with ⟨line', hline'⟩
      refine ⟨k, i, line, line', slot, earlier, hline, hline', ?_⟩
      rw [id_of_parse h other hline.found, id_of_parse h found.1 hline'.found]

theorem build_eq_error_of_parse (h : parse text queried = .ok nodes) :
    (exists e, Table.build nodes = .error e) <->
      exists i j line other slot, i ≠ j ∧ MasterLine text i line slot ∧
        MasterLine text j other slot := by
  constructor
  · rintro ⟨e, he⟩
    rcases conflict_of_build h he with
      ⟨i, j, line, other, slot, hlt, hline, hother, _⟩
    exact ⟨i, j, line, other, slot, Nat.ne_of_lt hlt, hline, hother⟩
  · rintro ⟨i, j, line, other, slot, hne, hline, hother⟩
    cases hbuild : Table.build nodes with
    | error e => exact ⟨e, rfl⟩
    | ok t =>
        have hconsistent := Table.build_eq_ok_iff.mp ⟨t, hbuild⟩
        have hsame :=
          hconsistent.disjoint ((claims_of_parse h).mpr ⟨line, hline⟩)
            ((claims_of_parse h).mpr ⟨other, hother⟩)
        exact absurd hsame hne

theorem slotOwner?_of_line {t : Table} (h : parse text queried = .ok nodes)
    (hbuild : Table.build nodes = .ok t) (hline : MasterLine text i line slot) :
    exists n, parseLine queried line = .ok n ∧ t.slotOwner? slot = some n := by
  rcases exists_of_line h hline.found with ⟨n, hread, hn⟩
  refine ⟨n, hread, ?_⟩
  rw [Table.slotOwner?_of_claims hbuild ((claims_of_parse h).mpr ⟨line, hline⟩),
    hn]

/-- Every listing that can be read is safe to index.  Its ranges are not empty
and lie within the keyspace.  Its nodes are refused only for a conflict, and
exactly if two lines of masters name the same slot; the refusal then gives such
a slot and the ids of its two lines.  In the table a slot belongs to the node of
the only line of a master that names it, and to nobody if there is no such
line. -/
theorem build_of_parse (h : parse text queried = .ok nodes) :
    (forall n r, n ∈ nodes -> r ∈ n.slots ->
      r.start.toNat < r.stop.toNat ∧ r.stop.toNat ≤ 16384) ∧
    (forall e, Table.build nodes = .error e ->
      exists i j line other slot, i < j ∧ MasterLine text i line slot ∧
        MasterLine text j other slot ∧
        e = .slotConflict slot (idOf line) (idOf other)) ∧
    ((exists e, Table.build nodes = .error e) <->
      exists i j line other slot, i ≠ j ∧ MasterLine text i line slot ∧
        MasterLine text j other slot) ∧
    forall t, Table.build nodes = .ok t -> forall slot,
      (forall i line, MasterLine text i line slot ->
        (exists n, parseLine queried line = .ok n ∧
          t.slotOwner? slot = some n) ∧
          forall j other, MasterLine text j other slot -> j = i) ∧
      ((forall i line, ¬ MasterLine text i line slot) ->
        t.slotOwner? slot = none) := by
  refine ⟨?_, fun e he => conflict_of_build h he, build_eq_error_of_parse h, ?_⟩
  · intro n r hn hr
    have hvalid := valid_of_parse h hn hr
    exact ⟨UInt32.lt_iff_toNat_lt.mp hvalid.1, hvalid.2⟩
  · intro t ht slot
    constructor
    · intro i line hline
      refine ⟨slotOwner?_of_line h ht hline, ?_⟩
      intro j other hother
      exact (Table.build_eq_ok_iff.mp ⟨t, ht⟩).disjoint
        ((claims_of_parse h).mpr ⟨other, hother⟩)
        ((claims_of_parse h).mpr ⟨line, hline⟩)
    · intro hnone
      apply Table.slotOwner?_eq_none ht
      intro position hclaims
      rcases (claims_of_parse h).mp hclaims with ⟨line, hline⟩
      exact hnone position line hline

def shadowed : String :=
  "a h:1 master - 0 0 1 up 5-7 [9-<-b] +7\n\nb h:2 slave a 0 0 1 up 6"

def promoted : String :=
  "a h:1 master - 0 0 1 up 5-7\nb h:2 myself,master - 0 0 1 up 6"

theorem build_of_parse_promoted :
    (exists nodes t n, parse shadowed (.atAddress "q" 1) = .ok nodes ∧
      Table.build nodes = .ok t ∧
      t.slotOwner? 6 = some n ∧ n.id = "a" ∧ t.slotOwner? 9 = none) ∧
    exists nodes slot, parse promoted (.atAddress "q" 1) = .ok nodes ∧
      Table.build nodes = .error (.slotConflict slot "a" "b") := by
  constructor
  · let nodes : List Node :=
      [Node.makeMaster "a" (.atAddress "h" 1) [⟨5, 8⟩, ⟨7, 8⟩],
        { Node.makeReplica "b" (.atAddress "h" 2) "a" with slots := [⟨6, 7⟩] }]
    have hparse : parse shadowed (.atAddress "q" 1) = .ok nodes := by decide
    have honly {i slot : Nat} {line : List Char}
        (h : MasterLine shadowed i line slot) : i = 0 ∧ slot < 8 := by
      rcases (claims_of_parse hparse).mpr ⟨line, h⟩ with ⟨n, hn, hclaims⟩
      rcases i with _ | _ | i
      · cases hn
        simp [Node.claims, Node.makeMaster] at hclaims
        omega
      · cases hn
        exact absurd (Bool.and_eq_true_iff.mp hclaims).1 (by decide)
      · cases hn
    have hclaims : Table.Claims nodes 0 6 := ⟨_, rfl, by decide⟩
    rcases (claims_of_parse hparse).mp hclaims with ⟨line, hline⟩
    have hfound : (linesOf shadowed.toList)[0]? =
        some "a h:1 master - 0 0 1 up 5-7 [9-<-b] +7".toList := by
      decide
    rcases build_of_parse hparse with ⟨_, _, hfails, howned⟩
    cases hbuild : Table.build nodes with
    | error e =>
        rcases hfails.mp ⟨e, hbuild⟩ with
          ⟨i, j, first, second, slot, hne, hfirst, hsecond⟩
        exact absurd ((honly hfirst).1.trans (honly hsecond).1.symm) hne
    | ok t =>
        rcases (howned t hbuild 6).1 0 line hline with ⟨⟨n, hread, howner⟩, _⟩
        refine ⟨nodes, t, n, hparse, hbuild, howner, ?_,
          (howned t hbuild 9).2 ?_⟩
        · rw [id_of_parseLine hread,
            ← Option.some.inj (hfound.symm.trans hline.found)]
          decide
        · intro i line hline
          exact absurd (honly hline).2 (by decide)
  · let nodes : List Node :=
      [Node.makeMaster "a" (.atAddress "h" 1) [⟨5, 8⟩],
        { Node.makeMaster "b" (.atAddress "h" 2) [⟨6, 7⟩] with
          flags := .ofList [.myself, .master] }]
    have hparse : parse promoted (.atAddress "q" 1) = .ok nodes := by decide
    have hid {i : Nat} {line : List Char} {slot : Nat}
        (h : MasterLine promoted i line slot) :
        i < 2 ∧ idOf line = if i = 0 then "a" else "b" := by
      have hlines : linesOf promoted.toList =
        ["a h:1 master - 0 0 1 up 5-7".toList,
          "b h:2 myself,master - 0 0 1 up 6".toList] := by decide
      have hfound := h.found
      rw [hlines] at hfound
      rcases i with _ | _ | i
      · cases hfound
        exact ⟨by decide, by decide⟩
      · cases hfound
        exact ⟨by decide, by decide⟩
      · cases hfound
    have hclaims : Table.Claims nodes 0 6 ∧ Table.Claims nodes 1 6 :=
      ⟨⟨_, rfl, by decide⟩, ⟨_, rfl, by decide⟩⟩
    rcases (claims_of_parse hparse).mp hclaims.1 with ⟨first, hfirst⟩
    rcases (claims_of_parse hparse).mp hclaims.2 with ⟨second, hsecond⟩
    rcases build_of_parse hparse with ⟨_, hrefused, hfails, _⟩
    rcases hfails.mpr ⟨0, 1, first, second, 6, by decide, hfirst, hsecond⟩ with
      ⟨e, he⟩
    rcases hrefused e he with ⟨i, j, line, other, slot, hlt, hline, hother, rfl⟩
    have hplaces : i = 0 ∧ j = 1 := by
      have hi := (hid hline).1
      have hj := (hid hother).1
      omega
    rw [(hid hline).2, (hid hother).2, hplaces.1, hplaces.2] at he
    exact ⟨nodes, slot, hparse, he⟩

end Listing
end SlotCluster
