import SlotCluster.Proofs.Text.Numerals
import SlotCluster.Proofs.Text.Pieces
import SlotCluster.Topology.Listing

/-!
# Spellings of addresses

An address is written as a host and a port with a colon between.  The host may
hold colons itself, so the port stands after the last one.  Brackets around the
host do not belong to it, and they need not match; the port may have a plus sign
or zeros in front.  So an address has many spellings, and the one without
brackets, sign and zeros is the one it is written in.

Endpoints and the address fields of node listings are read by two readers.  Both
go by these spellings alone, and they differ only where nothing is left of the
host: then there is no endpoint, and a node is at the host that was asked.
-/

namespace SlotCluster
namespace Endpoint

open Text

variable {text host : List Char} {port : UInt16}

/-!
## Hosts in brackets

A host may stand in any number of brackets, opened in front of it and closed
behind it.
-/

structure Bracketed (text host : List Char) : Prop where
  around : exists opened closed,
    text = List.replicate opened '[' ++ host ++ List.replicate closed ']'
  front : host.head? ≠ some '['
  back : host.getLast? ≠ some ']'

theorem Bracketed.bare (hfront : host.head? ≠ some '[')
    (hback : host.getLast? ≠ some ']') : Bracketed host host :=
  ⟨⟨0, 0, (List.append_nil host).symm⟩, hfront, hback⟩

theorem head?_append_closed {closed : Nat} :
    (host ++ List.replicate closed ']').head? ≠ some '[' <->
      host.head? ≠ some '[' := by
  cases host with
  | nil => cases closed <;> simp [List.replicate_succ]
  | cons c rest => exact Iff.rfl

theorem unbracket_eq_iff : unbracket text = host <-> Bracketed text host := by
  unfold unbracket
  constructor
  · intro h
    rcases trimRight_eq_iff.mp h with ⟨⟨closed, hclosed⟩, hback⟩
    rcases trimLeft_eq_iff.mp hclosed with ⟨⟨opened, hopened⟩, hfront⟩
    refine ⟨⟨opened, closed, ?_⟩, head?_append_closed.mp hfront, hback⟩
    rw [hopened, List.append_assoc]
  · rintro ⟨⟨opened, closed, htext⟩, hfront, hback⟩
    rw [List.append_assoc] at htext
    have hleft :
        trimLeft (fun c => c == '[') text = host ++ List.replicate closed ']' :=
      trimLeft_eq_iff.mpr ⟨⟨opened, htext⟩, head?_append_closed.mpr hfront⟩
    rw [hleft]
    exact trimRight_eq_iff.mpr ⟨⟨closed, rfl⟩, hback⟩

/-! ## Addresses -/

/-- The text is the host, in brackets or not, and the port with the last colon
of the text between. -/
inductive Spells (text host : List Char) (port : UInt16) : Prop where
  | intro {front numeral : List Char} (cut : text = front ++ ':' :: numeral)
      (last : ':' ∉ numeral) (brackets : Bracketed front host)
      (number : Decimal.Denotes numeral port.toNat)

theorem port_eq_some_iff {numeral : List Char} :
    (Decimal.below? 65536 numeral).map UInt16.ofNat = some port <->
      Decimal.Denotes numeral port.toNat :=
  Decimal.map_below?_eq_some_iff UInt16.toNat_lt
    (fun _ h => UInt16.toNat_ofNat_of_lt' h) (fun _ => UInt16.ofNat_toNat)

theorem splitAddress?_eq_some_iff :
    splitAddress? text = some (host, port) <-> Spells text host port := by
  unfold splitAddress?
  constructor
  · intro h
    split at h
    · cases h
    · rename_i front numeral hsplit
      rcases splitLast_eq_some_iff.mp hsplit with ⟨hcut, hlast⟩
      rcases Option.map_eq_some_iff.mp h with ⟨n, hn, heq⟩
      cases heq
      exact ⟨hcut, hlast, unbracket_eq_iff.mp rfl,
        port_eq_some_iff.mp (Option.map_eq_some_iff.mpr ⟨n, hn, rfl⟩)⟩
  · rintro ⟨hcut, hlast, hbrackets, hnumber⟩
    rcases Option.map_eq_some_iff.mp (port_eq_some_iff.mpr hnumber) with
      ⟨n, hn, hport⟩
    rw [splitLast_eq_some_iff.mpr ⟨hcut, hlast⟩]
    simp only [hn, Option.map_some, unbracket_eq_iff.mpr hbrackets, hport]

theorem Spells.unique {other : List Char} {port' : UInt16}
    (h : Spells text host port) (h' : Spells text other port') :
    host = other ∧ port = port' := by
  have hsame := splitAddress?_eq_some_iff.mpr h'
  rw [splitAddress?_eq_some_iff.mpr h, Option.some.injEq,
    Prod.mk.injEq] at hsame
  exact hsame

theorem splitAddress?_eq_none (h : forall host port, ¬ Spells text host port) :
    splitAddress? text = none := by
  rw [Option.eq_none_iff_forall_ne_some]
  rintro ⟨host, port⟩ hsome
  exact h host port (splitAddress?_eq_some_iff.mp hsome)

theorem spells_of_parts (hfront : host.head? ≠ some '[')
    (hback : host.getLast? ≠ some ']') (port : UInt16) :
    Spells (host ++ ':' :: Decimal.digits port.toNat) host port := by
  have hcolon : ':' ∉ Decimal.digits port.toNat := by
    intro h
    exact absurd (Decimal.isDigit_of_mem_digits h) (by decide)
  exact ⟨rfl, hcolon, Bracketed.bare hfront hback, Decimal.denotes_digits _⟩

/-! ## Endpoints -/

section Endpoints

variable {text : String} {e : Endpoint}

theorem parse_of_spells (h : Spells text.toList host port) :
    parse text = if host.isEmpty then .error (.invalidEndpoint text)
      else .ok (atAddress (String.ofList host) port) := by
  unfold parse
  rw [splitAddress?_eq_some_iff.mpr h]

theorem parse_of_unspelled
    (h : forall host port, ¬ Spells text.toList host port) :
    parse text = .error (.invalidEndpoint text) := by
  unfold parse
  rw [splitAddress?_eq_none h]

theorem parse_eq_ok_iff :
    parse text = .ok e <->
      exists host port, Spells text.toList host port ∧ host ≠ [] ∧
        e = atAddress (String.ofList host) port := by
  constructor
  · intro h
    by_cases hspelled : exists host port, Spells text.toList host port
    · rcases hspelled with ⟨host, port, hspells⟩
      rw [parse_of_spells hspells] at h
      split at h
      · cases h
      · rename_i hhost
        cases h
        exact ⟨host, port, hspells,
          fun hnil => hhost (List.isEmpty_iff.mpr hnil), rfl⟩
    · rw [parse_of_unspelled
        (fun host port hspells => hspelled ⟨host, port, hspells⟩)] at h
      cases h
  · rintro ⟨host, port, hspells, hhost, rfl⟩
    rw [parse_of_spells hspells,
      if_neg (fun hempty => hhost (List.isEmpty_iff.mp hempty))]

theorem parse_eq_error_iff {fault : TopologyError} :
    parse text = .error fault <->
      (forall host port, Spells text.toList host port -> host = []) ∧
        fault = .invalidEndpoint text := by
  by_cases hspelled : exists host port, Spells text.toList host port
  · rcases hspelled with ⟨host, port, hspells⟩
    rw [parse_of_spells hspells]
    split
    · rename_i hempty
      constructor
      · intro h
        cases h
        refine ⟨fun other port' hother => ?_, rfl⟩
        rw [(hother.unique hspells).1, List.isEmpty_iff.mp hempty]
      · rintro ⟨_, rfl⟩
        rfl
    · rename_i hhost
      refine ⟨nofun, fun h => ?_⟩
      exact absurd (List.isEmpty_iff.mpr (h.1 host port hspells)) hhost
  · have hnone (host : List Char) (port : UInt16) :
        ¬ Spells text.toList host port :=
      fun hspells => hspelled ⟨host, port, hspells⟩
    rw [parse_of_unspelled hnone, Except.error.injEq, eq_comm]
    exact (and_iff_right
      (fun host port hspells => absurd hspells (hnone host port))).symm

theorem toList_addr (e : Endpoint) :
    e.addr.toList = e.host.toList ++ ':' :: Decimal.digits e.port.toNat := by
  have hcolon : ":".toList = [':'] := String.toList_ofList
  rw [addr, String.toList_append, String.toList_append, hcolon,
    String.toList_ofList, List.append_assoc]
  rfl

theorem parse_addr (h : parse text = .ok e) : parse e.addr = .ok e := by
  rcases parse_eq_ok_iff.mp h with
    ⟨host, port, ⟨_, _, hbrackets, _⟩, hhost, rfl⟩
  have hspells := spells_of_parts hbrackets.front hbrackets.back port
  refine parse_eq_ok_iff.mpr ⟨host, port, ?_, hhost, rfl⟩
  rw [toList_addr, atAddress, String.toList_ofList]
  exact hspells

end Endpoints

/-! ## Addresses of nodes -/

section Nodes

variable {field : List Char}

theorem upTo_of_plain (hcomma : ',' ∉ field) (hat : '@' ∉ field) :
    upTo '@' (upTo ',' field) = field := by
  rw [upTo_of_not_mem hcomma, upTo_of_not_mem hat]

theorem parseAddress_of_spells (hcomma : ',' ∉ field) (hat : '@' ∉ field)
    (queried : Endpoint) (h : Spells field host port) :
    Listing.parseAddress field queried =
      .ok
        { atAddress (if host.isEmpty then queried.host
          else String.ofList host) port with
        timeout := queried.timeout } := by
  unfold Listing.parseAddress
  rw [upTo_of_plain hcomma hat, splitAddress?_eq_some_iff.mpr h]
  rfl

theorem parseAddress_eq_error_iff (hcomma : ',' ∉ field) (hat : '@' ∉ field)
    (queried : Endpoint) {fault : TopologyError} :
    Listing.parseAddress field queried = .error fault <->
      (forall host port, ¬ Spells field host port) ∧
        fault = .invalidEndpoint (String.ofList field) := by
  by_cases hspelled : exists host port, Spells field host port
  · rcases hspelled with ⟨host, port, hspells⟩
    rw [parseAddress_of_spells hcomma hat queried hspells]
    exact ⟨nofun, fun h => absurd hspells (h.1 host port)⟩
  · have hnone (host : List Char) (port : UInt16) : ¬ Spells field host port :=
      fun hspells => hspelled ⟨host, port, hspells⟩
    unfold Listing.parseAddress
    rw [upTo_of_plain hcomma hat, splitAddress?_eq_none hnone,
      Except.error.injEq, eq_comm]
    exact (and_iff_right hnone).symm

end Nodes

/-!
## The two readers

Endpoints are read from texts of their own, and from the lines of a node
listing, where a missing host stands for the one that was asked.
-/

structure Agreed (text : String) (queried : Endpoint) : Prop where
  /-- An endpoint is a node at the same address, with the timeout of the one
  that was asked. -/
  same : forall e, parse text = .ok e ->
    Listing.parseAddress text.toList queried =
      .ok { e with timeout := queried.timeout }
  /-- Where nothing is left of the host, only the node has one. -/
  lent : forall port, Spells text.toList [] port ->
    parse text = .error (.invalidEndpoint text) ∧
      Listing.parseAddress text.toList queried =
        .ok { atAddress queried.host port with timeout := queried.timeout }
  /-- Apart from that both fail at once, and with the same error. -/
  refused : forall fault,
    Listing.parseAddress text.toList queried = .error fault <->
    parse text = .error fault ∧ forall port, ¬ Spells text.toList [] port

theorem Agreed.of_plain {text : String} (hcomma : ',' ∉ text.toList)
    (hat : '@' ∉ text.toList) (queried : Endpoint) : Agreed text queried := by
  constructor
  · intro e he
    rcases parse_eq_ok_iff.mp he with ⟨host, port, hspells, hhost, rfl⟩
    rw [parseAddress_of_spells hcomma hat queried hspells,
      if_neg (fun hempty => hhost (List.isEmpty_iff.mp hempty))]
  · intro port hspells
    constructor
    · rw [parse_of_spells hspells]
      rfl
    · rw [parseAddress_of_spells hcomma hat queried hspells]
      rfl
  · intro fault
    rw [parseAddress_eq_error_iff hcomma hat, parse_eq_error_iff,
      String.ofList_toList]
    constructor
    · rintro ⟨hnone, hfault⟩
      exact ⟨⟨fun host port hspells => absurd hspells (hnone host port),
        hfault⟩, hnone []⟩
    · rintro ⟨⟨hempty, hfault⟩, hlent⟩
      refine ⟨fun host port hspells => ?_, hfault⟩
      rw [hempty host port hspells] at hspells
      exact hlent port hspells

/-- A text is an endpoint exactly if it spells an address with a host.  The
address of an endpoint is a spelling of the same endpoint, and the reader of
node listings takes no other address from a text than this. -/
theorem spelling_exact (text : String) :
    (forall e, parse text = .ok e <->
      exists host port, Spells text.toList host port ∧ host ≠ [] ∧
        e = atAddress (String.ofList host) port) ∧
    (forall e, parse text = .ok e -> parse e.addr = .ok e) ∧
    (',' ∉ text.toList -> '@' ∉ text.toList ->
      forall queried, Agreed text queried) :=
  ⟨fun _ => parse_eq_ok_iff, fun _ he => parse_addr he, Agreed.of_plain⟩

def disguised : String :=
  "[[::1]:+0080"

def hostless : String :=
  "[]]:7"

theorem spelling_exact_disguised :
    (',' ∉ disguised.toList ∧ '@' ∉ disguised.toList ∧
      parse disguised = .ok (atAddress "::1" 80) ∧
      parse (atAddress "::1" 80).addr = .ok (atAddress "::1" 80) ∧
      Listing.parseAddress disguised.toList
        { atAddress "q" 1 with timeout := .ofMillis 5 } =
        .ok { atAddress "::1" 80 with timeout := .ofMillis 5 }) ∧
    (',' ∉ hostless.toList ∧ '@' ∉ hostless.toList ∧
      parse hostless = .error (.invalidEndpoint hostless) ∧
      Listing.parseAddress hostless.toList (atAddress "q" 1) =
        .ok (atAddress "q" 7)) := by
  have hplain : ',' ∉ disguised.toList ∧ '@' ∉ disguised.toList := by decide
  have hempty : ',' ∉ hostless.toList ∧ '@' ∉ hostless.toList := by decide
  have hnumber : Decimal.Denotes ['+', '0', '0', '8', '0'] 80 :=
    ⟨_, Or.inr rfl, Decimal.natural?_eq_some_iff.mp rfl⟩
  have hhost : Spells disguised.toList [':', ':', '1'] 80 :=
    ⟨rfl, by decide, ⟨⟨2, 1, rfl⟩, by decide, by decide⟩, hnumber⟩
  have hlent : Spells hostless.toList [] 7 :=
    ⟨rfl, by
      decide, ⟨⟨1, 2, rfl⟩, by decide, by
        decide⟩, _, Or.inl rfl, Decimal.natural?_eq_some_iff.mp rfl⟩
  rcases spelling_exact disguised with ⟨hparse, haddr, hreaders⟩
  have he : parse disguised = .ok (atAddress "::1" 80) :=
    (hparse _).mpr ⟨_, _, hhost, List.cons_ne_nil _ _, rfl⟩
  rcases ((spelling_exact hostless).2.2 hempty.1 hempty.2
    (atAddress "q" 1)).lent 7 hlent with ⟨hrefused, hnode⟩
  exact ⟨⟨hplain.1, hplain.2, he, haddr _ he,
    (hreaders hplain.1 hplain.2 _).same _ he⟩, hempty.1, hempty.2,
      hrefused, hnode⟩

end Endpoint
end SlotCluster
