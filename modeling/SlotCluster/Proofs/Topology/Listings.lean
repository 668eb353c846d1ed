import SlotCluster.Proofs.Topology.Fields
import SlotCluster.Proofs.Topology.Tokens

/-!
# Node listings read back

A listing is written line by line: blank lines anywhere, line ends of one or two
characters, and in the line of a node besides what the node is its bus port, its
host name, four fields of its links and tokens of slots on the move.  None of
this gets into the nodes, and reading a listing gives back exactly the nodes
that were written, in their order.

A listing with a line that is no node is refused as a whole.  What is wrong with
a line is said here without the reader, and the first such line decides.
-/

namespace SlotCluster
namespace Listing

open Text

/-!
## Writing

Lines are written with words between single spaces and may have white space
behind them.  Blank ones may stand anywhere, and the last line has no end.
-/

inductive SlotToken where
  | owned (range : SlotRange)
  /-- Slots on the move, in brackets. -/
  | moving (inner : List Char)
  deriving DecidableEq, Repr

namespace SlotToken

def write : SlotToken -> List Char
  | owned range => range.render
  | moving inner => '[' :: inner ++ [']']

def range? : SlotToken -> Option SlotRange
  | owned range => some range
  | moving _ => none

end SlotToken

structure Row where
  node : Node
  busPort : List Char
  hostname : Option (List Char)
  ping : List Char
  pong : List Char
  epoch : List Char
  link : List Char
  tokens : List SlotToken
  deriving Repr

namespace Row

def addressField (r : Row) : List Char :=
  r.node.endpoint.addr.toList ++ '@' ::
    (r.busPort ++ (r.hostname.map (fun name => ',' :: name)).getD [])

def masterField (r : Row) : List Char :=
  (r.node.masterId.map String.toList).getD ['-']

def fields (r : Row) : List (List Char) :=
  [r.node.id.toList, r.addressField, r.node.flagText.toList, r.masterField,
    r.ping, r.pong, r.epoch, r.link] ++ r.tokens.map SlotToken.write

structure Sound (queried : Endpoint) (r : Row) : Prop where
  id : IsWord r.node.id.toList
  host : IsWord r.node.endpoint.host.toList
  comma : ',' ∉ r.node.endpoint.host.toList
  atSign : '@' ∉ r.node.endpoint.host.toList
  opening : r.node.endpoint.host.toList.head? ≠ some '['
  closing : r.node.endpoint.host.toList.getLast? ≠ some ']'
  password : r.node.endpoint.password = none
  resolved : r.node.endpoint.resolved = none
  timeout : r.node.endpoint.timeout = queried.timeout
  master : forall {id : String}, r.node.masterId = some id ->
    IsWord id.toList ∧ id ≠ "-"
  slots : r.tokens.filterMap SlotToken.range? = r.node.slots
  valid : forall {range : SlotRange}, range ∈ r.node.slots -> range.Valid
  moving : forall {inner : List Char}, .moving inner ∈ r.tokens ->
    forall c, c ∈ inner -> isBlank c = false
  busPort : forall c, c ∈ r.busPort -> isBlank c = false
  hostname : forall {name : List Char}, r.hostname = some name ->
    forall c, c ∈ name -> isBlank c = false
  ping : IsWord r.ping
  pong : IsWord r.pong
  epoch : IsWord r.epoch
  link : IsWord r.link

end Row

inductive Line where
  | blank (space : List Char)
  | row (row : Row)
  deriving Repr

namespace Line

def write : Line -> List Char
  | blank space => space
  | row r => joinWith [' '] r.fields

def node? : Line -> Option Node
  | blank _ => none
  | row r => some r.node

def Sound (queried : Endpoint) : Line -> Prop
  | blank space => IsSpace space ∧ '\n' ∉ space
  | row r => r.Sound queried

end Line

inductive LineEnd where
  | feed
  | returnFeed
  deriving DecidableEq, Repr

def LineEnd.front : LineEnd -> List Char
  | feed => []
  | returnFeed => ['\r']

def write (lines : List (Line × LineEnd)) (last : Line) : List Char :=
  lines.foldr (fun l text => l.1.write ++ l.2.front ++ '\n' :: text) last.write

/-! ## Written fields are words -/

theorem isBlank_of_isDigit {c : Char} (h : c.isDigit = true) :
    isBlank c = false := by
  rw [Char.isDigit, Bool.and_eq_true, decide_eq_true_eq, decide_eq_true_eq] at h
  have hlow : 48 ≤ c.toNat := h.1
  have hhigh : c.toNat ≤ 57 := h.2
  unfold isBlank
  simp only [Bool.or_eq_false_iff, Bool.and_eq_false_iff,
    decide_eq_false_iff_not, beq_eq_false_iff_ne]
  omega

theorem isBlank_of_mem_digits {n : Nat} {c : Char} (h : c ∈ Decimal.digits n) :
    isBlank c = false :=
  isBlank_of_isDigit (Decimal.isDigit_of_mem_digits h)

theorem isWord_render (r : SlotRange) : IsWord r.render := by
  unfold SlotRange.render
  split
  · exact ⟨Nat.toDigits_ne_nil, fun c hc => isBlank_of_mem_digits hc⟩
  · constructor
    · exact List.append_ne_nil_of_right_ne_nil _ (List.cons_ne_nil _ _)
    · intro c hc
      rcases List.mem_append.mp hc with hfirst | hrest
      · exact isBlank_of_mem_digits hfirst
      · rcases List.mem_cons.mp hrest with rfl | hlast
        · decide
        · exact isBlank_of_mem_digits hlast

theorem isWord_word (f : Flag) : IsWord f.word.toList := by
  cases f <;> decide

theorem isWord_flagText (n : Node) : IsWord n.flagText.toList := by
  unfold Node.flagText
  split
  · decide
  · rename_i hsome
    rw [joinTexts, String.toList_ofList]
    constructor
    · intro hnil
      cases hflags : n.flags.toList with
      | nil => exact hsome (List.isEmpty_iff.mpr hflags)
      | cons f rest =>
          rw [hflags] at hnil
          cases rest with
          | nil => exact (isWord_word f).nonempty hnil
          | cons g rest =>
              rw [List.map_cons, List.map_cons, List.map_cons, List.map_cons,
                joinWith, List.append_eq_nil_iff,
                List.append_eq_nil_iff] at hnil
              · exact (isWord_word f).nonempty hnil.1.1
              · exact List.cons_ne_nil _ _
    · intro c hc
      rcases mem_joinWith hc with hcomma | ⟨piece, hpiece, hmem⟩
      · rw [List.mem_singleton.mp hcomma]
        decide
      · rw [List.map_map] at hpiece
        rcases List.mem_map.mp hpiece with ⟨f, _, rfl⟩
        exact (isWord_word f).solid c hmem

namespace Row

variable {queried : Endpoint} {r : Row}

theorem isWord_addressField (h : r.Sound queried) : IsWord r.addressField := by
  constructor
  · exact List.append_ne_nil_of_right_ne_nil _ (List.cons_ne_nil _ _)
  · intro c hc
    rw [addressField, Endpoint.toList_addr, List.append_assoc,
      List.cons_append] at hc
    simp only [List.mem_append, List.mem_cons] at hc
    rcases hc with hhost | rfl | hport | rfl | hbus | hname
    · exact h.host.solid c hhost
    · decide
    · exact isBlank_of_mem_digits hport
    · decide
    · exact h.busPort c hbus
    · cases hhostname : r.hostname with
      | none =>
          rw [hhostname] at hname
          cases hname
      | some name =>
          rw [hhostname] at hname
          rcases List.mem_cons.mp hname with rfl | hname
          · decide
          · exact h.hostname hhostname c hname

theorem isWord_masterField (h : r.Sound queried) : IsWord r.masterField := by
  unfold masterField
  cases hmaster : r.node.masterId with
  | none => decide
  | some id => exact (h.master hmaster).1

theorem isWord_token (h : r.Sound queried) {token : SlotToken}
    (htoken : token ∈ r.tokens) : IsWord token.write := by
  cases token with
  | owned range => exact isWord_render range
  | moving inner =>
      refine ⟨List.cons_ne_nil _ _, ?_⟩
      intro c hc
      rw [SlotToken.write, List.cons_append, List.mem_cons, List.mem_append,
        List.mem_singleton] at hc
      rcases hc with rfl | hinner | rfl
      · decide
      · exact h.moving htoken c hinner
      · decide

theorem isWord_of_mem_fields (h : r.Sound queried) {field : List Char}
    (hfield : field ∈ r.fields) : IsWord field := by
  rw [fields, List.mem_append] at hfield
  rcases hfield with hfront | htoken
  · simp only [List.mem_cons, List.not_mem_nil, or_false] at hfront
    rcases hfront with rfl | rfl | rfl | rfl | rfl | rfl | rfl | rfl
    · exact h.id
    · exact isWord_addressField h
    · exact isWord_flagText r.node
    · exact isWord_masterField h
    · exact h.ping
    · exact h.pong
    · exact h.epoch
    · exact h.link
  · rcases List.mem_map.mp htoken with ⟨token, hmem, rfl⟩
    exact isWord_token h hmem

theorem words_write (h : r.Sound queried) :
    words (Line.row r).write = r.fields :=
  words_joinWith (fun _ hfield => isWord_of_mem_fields h hfield)

/-! ## Reading a line back -/

theorem parseAddress_addressField (h : r.Sound queried) :
    parseAddress r.addressField queried = .ok r.node.endpoint := by
  have hcolon : ',' ∉ r.node.endpoint.addr.toList ∧
      '@' ∉ r.node.endpoint.addr.toList := by
    rw [Endpoint.toList_addr]
    simp only [List.mem_append, List.mem_cons, not_or]
    refine ⟨⟨h.comma, by decide, ?_⟩, h.atSign, by decide, ?_⟩
    · exact fun hdigit =>
        absurd (Decimal.isDigit_of_mem_digits hdigit) (by decide)
    · exact fun hdigit =>
        absurd (Decimal.isDigit_of_mem_digits hdigit) (by decide)
  have hpart : addressPart r.addressField = r.node.endpoint.host.toList ++
      ':' :: Decimal.digits r.node.endpoint.port.toNat := by
    rw [addressField, addressPart_append hcolon.1 hcolon.2,
      Endpoint.toList_addr]
  rw [parseAddress_of_parts queried hpart h.host.nonempty h.opening h.closing,
    String.ofList_toList, ← h.password, ← h.resolved, ← h.timeout]

theorem parseMaster_masterField (h : r.Sound queried) :
    parseMaster r.masterField = r.node.masterId := by
  unfold parseMaster masterField
  cases hmaster : r.node.masterId with
  | none => rfl
  | some id =>
      have hdash : id.toList ≠ ['-'] := by
        intro hsame
        apply (h.master hmaster).2
        rw [← String.ofList_toList (s := id), hsame]
      simp only [Option.map_some, Option.getD_some, if_neg hdash,
        String.ofList_toList]

theorem head?_render (range : SlotRange) : range.render.head? ≠ some '[' := by
  have hdigit {n : Nat} {rest : List Char} :
      (Decimal.digits n ++ rest).head? ≠ some '[' := by
    intro hhead
    cases hdigits : Decimal.digits n with
    | nil => exact absurd hdigits Nat.toDigits_ne_nil
    | cons c more =>
        rw [hdigits] at hhead
        have hc : c.isDigit = true :=
          Decimal.isDigit_of_mem_digits (n := n) (by simp [hdigits])
        cases hhead
        cases hc
  unfold SlotRange.render
  split
  · rw [← List.append_nil (Decimal.digits _)]
    exact hdigit
  · exact hdigit

theorem parseRanges_write {tokens : List SlotToken}
    (hvalid : forall {range : SlotRange},
      range ∈ tokens.filterMap SlotToken.range? -> range.Valid) :
    parseRanges (tokens.map SlotToken.write) =
      .ok (tokens.filterMap SlotToken.range?) := by
  induction tokens with
  | nil => rfl
  | cons token rest ih =>
      cases token with
      | owned range =>
          have hcons :
              (SlotToken.owned range :: rest).filterMap SlotToken.range? =
                range :: rest.filterMap SlotToken.range? :=
            rfl
          rw [hcons] at hvalid ⊢
          have hrest :=
            ih (fun hrange => hvalid (List.mem_cons_of_mem range hrange))
          have hrange := parseSlots_render (hvalid List.mem_cons_self)
          rw [List.map_cons, parseRanges, SlotToken.write,
            if_neg (head?_render range), hrange]
          simp only [hrest]
      | moving inner =>
          rw [List.map_cons, parseRanges, SlotToken.write, List.cons_append,
            List.head?_cons, if_pos rfl]
          exact ih hvalid

theorem parseLine_of_words {line : List Char} (h : r.Sound queried)
    (hwords : words line = r.fields) : parseLine queried line = .ok r.node := by
  have hranges :
      parseRanges (r.tokens.map SlotToken.write) = .ok r.node.slots := by
    rw [parseRanges_write (fun hrange => h.valid (h.slots ▸ hrange)), h.slots]
  unfold parseLine
  rw [hwords, fields]
  simp only [List.cons_append, List.nil_append, parseAddress_addressField h,
    hranges, String.ofList_toList, parseFlags_flagText,
    parseMaster_masterField h]

end Row

/-! ## Reading a text back -/

variable {queried : Endpoint}

theorem lineFeed_not_mem_write {line : Line} (h : line.Sound queried) :
    '\n' ∉ line.write := by
  cases line with
  | blank space => exact h.2
  | row r =>
      intro hmem
      rcases mem_joinWith hmem with hspace | ⟨field, hfield, hc⟩
      · exact absurd hspace (by decide)
      · exact absurd
          ((Row.isWord_of_mem_fields h hfield).solid _ hc) (by decide)

theorem isSpace_front (e : LineEnd) : IsSpace e.front := by
  cases e with
  | feed => exact fun _ hc => absurd hc List.not_mem_nil
  | returnFeed =>
      intro c hc
      rw [List.mem_singleton.mp hc]
      decide

theorem splitAll_write {lines : List (Line × LineEnd)} {last : Line}
    (hlines : forall l, l ∈ lines -> l.1.Sound queried)
    (hlast : last.Sound queried) :
    splitAll '\n' (write lines last) =
      lines.map (fun l => l.1.write ++ l.2.front) ++ [last.write] := by
  induction lines with
  | nil => exact splitAll_of_not_mem (lineFeed_not_mem_write hlast)
  | cons l rest ih =>
      have hfront : '\n' ∉ l.1.write ++ l.2.front := by
        rw [List.mem_append, not_or]
        refine ⟨lineFeed_not_mem_write (hlines l List.mem_cons_self), ?_⟩
        cases l.2 <;> decide
      have hrest :=
        ih (fun other hother => hlines other (List.mem_cons_of_mem l hother))
      have hcut : write (l :: rest) last = l.1.write ++ l.2.front ++ '\n' ::
          write rest last :=
        rfl
      rw [hcut, splitAll_append hfront, hrest]
      rfl

theorem parseLines_written {pieces : List (Line × List Char)}
    (h : forall piece, piece ∈ pieces ->
      piece.1.Sound queried ∧ IsSpace piece.2) :
    parseLines queried
      (((pieces.map (fun piece => piece.1.write ++ piece.2)).map trim).filter
        (fun line => !line.isEmpty)) =
          .ok ((pieces.map Prod.fst).filterMap Line.node?) := by
  induction pieces with
  | nil => rfl
  | cons piece rest ih =>
      rcases piece with ⟨line, behind⟩
      rcases h _ List.mem_cons_self with ⟨hsound, hbehind⟩
      have hrest :=
        ih (fun other hother => h other (List.mem_cons_of_mem _ hother))
      cases line with
      | blank space =>
          have htrim : trim (space ++ behind) = [] := by
            apply trim_of_isSpace
            intro c hc
            rcases List.mem_append.mp hc with hspace | hc
            · exact hsound.1 c hspace
            · exact hbehind c hc
          rw [List.map_cons, List.map_cons, Line.write, htrim]
          exact hrest
      | row r =>
          have hwords : words ((Line.row r).write ++ behind) = r.fields := by
            rw [words_append_space hbehind, Row.words_write hsound]
          have htrim :
              (!(trim ((Line.row r).write ++ behind)).isEmpty) = true := by
            rw [Bool.not_eq_true', List.isEmpty_eq_false_iff]
            apply trim_ne_nil
            rw [hwords]
            exact List.cons_ne_nil _ _
          have hline : parseLine queried (trim ((Line.row r).write ++ behind)) =
              .ok r.node :=
            Row.parseLine_of_words hsound (by rw [words_trim, hwords])
          rw [List.map_cons, List.map_cons, List.filter_cons, if_pos htrim,
            parseLines, hline]
          simp only [hrest]
          rfl

theorem parse_write {lines : List (Line × LineEnd)} {last : Line}
    (hlines : forall l, l ∈ lines -> l.1.Sound queried)
    (hlast : last.Sound queried) :
    parse (String.ofList (write lines last)) queried =
      .ok ((lines.map Prod.fst ++ [last]).filterMap Line.node?) := by
  let pieces : List (Line × List Char) :=
    lines.map (fun l => (l.1, l.2.front)) ++ [(last, [])]
  have hsound (piece : Line × List Char) (hpiece : piece ∈ pieces) :
      piece.1.Sound queried ∧ IsSpace piece.2 := by
    rcases List.mem_append.mp hpiece with hline | hpiece
    · rcases List.mem_map.mp hline with ⟨l, hl, rfl⟩
      exact ⟨hlines l hl, isSpace_front l.2⟩
    · rw [List.mem_singleton.mp hpiece]
      exact ⟨hlast, fun _ hc => absurd hc List.not_mem_nil⟩
  have htexts : pieces.map (fun piece => piece.1.write ++ piece.2) =
      lines.map (fun l => l.1.write ++ l.2.front) ++ [last.write] := by
    simp [pieces]
  have hfirst : pieces.map Prod.fst = lines.map Prod.fst ++ [last] := by
    simp [pieces]
  have hwritten := parseLines_written hsound
  rw [htexts, hfirst] at hwritten
  unfold parse linesOf
  rw [String.toList_ofList, splitAll_write hlines hlast]
  exact hwritten

/-! ## What is wrong with a text -/

def IsMoving (token : List Char) : Prop :=
  token.head? = some '['

instance (token : List Char) : Decidable (IsMoving token) :=
  inferInstanceAs (Decidable (_ = _))

/-- What is wrong with a line.  The fields are counted first, then the address
is looked at, and then the slot tokens up to the first one that is none. -/
inductive Fault (line : List Char) : TopologyError -> Prop where
  | short (few : (words line).length < 8) :
      Fault line
        (.invalidEndpoint ("malformed node line: " ++ String.ofList line))
  | address {field : List Char} (enough : 8 ≤ (words line).length)
      (second : (words line)[1]? = some field)
      (bad : ¬ IsAddress (addressPart field)) :
      Fault line (.invalidEndpoint (String.ofList field))
  | slots {field token : List Char} {before after : List (List Char)}
      {e : TopologyError}
      (enough : 8 ≤ (words line).length)
      (second : (words line)[1]? = some field)
      (good : IsAddress (addressPart field))
      (tokens : ((words line).drop 8).filter (fun other => ¬ IsMoving other) =
        before ++ token :: after)
      (fine : forall other, other ∈ before -> forall e', ¬ TokenFault other e')
      (bad : TokenFault token e) :
      Fault line e

theorem mapM_eq_error_iff {α β ε : Type} {f : α -> Except ε β} {items : List α}
    {e : ε} :
    items.mapM f = .error e <->
      exists before item after, items = before ++ item :: after ∧
        (forall other, other ∈ before -> forall e', f other ≠ .error e') ∧
          f item = .error e := by
  induction items with
  | nil =>
      constructor
      · intro h
        cases h
      · rintro ⟨before, item, after, hcut, _⟩
        exact absurd hcut.symm
          (List.append_ne_nil_of_right_ne_nil before
            (List.cons_ne_nil item after))
  | cons first rest ih =>
      rw [List.mapM_cons]
      cases hfirst : f first with
      | error e' =>
          constructor
          · intro h
            cases h
            exact ⟨[], first, rest, rfl,
              fun _ hother => absurd hother List.not_mem_nil, hfirst⟩
          · rintro ⟨before, item, after, hcut, hfine, hitem⟩
            cases before with
            | nil =>
                cases hcut
                rw [hfirst] at hitem
                cases hitem
                rfl
            | cons other before =>
                cases hcut
                exact absurd hfirst (hfine _ List.mem_cons_self e')
      | ok value =>
          have hrest :
              (do let values ← rest.mapM f; pure (value :: values) :
                Except ε (List β)) = .error e <-> rest.mapM f = .error e := by
            cases rest.mapM f with
            | error e' => exact Iff.rfl
            | ok values =>
                constructor
                · intro h
                  cases h
                · intro h
                  cases h
          refine Iff.trans hrest (ih.trans ⟨?_, ?_⟩)
          · rintro ⟨before, item, after, rfl, hfine, hitem⟩
            refine ⟨first :: before, item, after, rfl, ?_, hitem⟩
            intro other hother e'
            rcases List.mem_cons.mp hother with rfl | hother
            · rw [hfirst]
              intro hsame
              cases hsame
            · exact hfine other hother e'
          · rintro ⟨before, item, after, hcut, hfine, hitem⟩
            cases before with
            | nil =>
                cases hcut
                rw [hfirst] at hitem
                cases hitem
            | cons other before =>
                cases hcut
                exact ⟨before, item, after, rfl, fun next hnext =>
                  hfine next (List.mem_cons_of_mem _ hnext), hitem⟩

theorem parseLines_eq_mapM (lines : List (List Char)) :
    parseLines queried lines = lines.mapM (parseLine queried) := by
  induction lines with
  | nil => rfl
  | cons line rest ih =>
      rw [parseLines, List.mapM_cons, ih]
      cases parseLine queried line with
      | error e => rfl
      | ok node => cases rest.mapM (parseLine queried) <;> rfl

theorem parseRanges_eq_mapM (tokens : List (List Char)) :
    parseRanges tokens =
      (tokens.filter (fun token => ¬ IsMoving token)).mapM parseSlots := by
  induction tokens with
  | nil => rfl
  | cons token rest ih =>
      rw [parseRanges, List.filter_cons]
      by_cases hmoving : token.head? = some '['
      · have hnot : ¬ decide (¬ IsMoving token) = true := by
          rw [decide_eq_true_eq, not_not]
          exact hmoving
        rw [if_pos hmoving, if_neg hnot, ih]
      · have hyes : decide (¬ IsMoving token) = true := decide_eq_true hmoving
        rw [if_neg hmoving, if_pos hyes, List.mapM_cons, ih]
        cases parseSlots token with
        | error e => rfl
        | ok range =>
            cases (rest.filter (fun token => ¬ IsMoving token)).mapM
              parseSlots <;> rfl

theorem parseRanges_eq_error_iff {tokens : List (List Char)}
    {e : TopologyError} :
    parseRanges tokens = .error e <->
      exists before token after,
        tokens.filter (fun other => ¬ IsMoving other) =
          before ++ token :: after ∧
        (forall other, other ∈ before -> forall e', ¬ TokenFault other e') ∧
          TokenFault token e := by
  rw [parseRanges_eq_mapM, mapM_eq_error_iff]
  simp only [ne_eq, parseSlots_eq_error_iff]

theorem exists_fields {fields : List (List Char)} (h : 8 ≤ fields.length) :
    exists id address flags master ping pong epoch link,
      fields = id :: address :: flags :: master :: ping :: pong :: epoch ::
        link :: fields.drop 8 := by
  match fields, h with
  | id :: address :: flags :: master :: ping :: pong :: epoch :: link :: _, _ =>
      exact ⟨id, address, flags, master, ping, pong, epoch, link, rfl⟩

theorem parseLine_of_short {line : List Char} (h : (words line).length < 8) :
    parseLine queried line =
      .error (.invalidEndpoint
        ("malformed node line: " ++ String.ofList line)) := by
  unfold parseLine
  split
  · rename_i hwords
    rw [hwords] at h
    simp only [List.length_cons] at h
    omega
  · rfl

theorem parseLine_eq_error_of_fields {line field : List Char}
    {e : TopologyError} (h : 8 ≤ (words line).length)
    (hfield : (words line)[1]? = some field) :
    parseLine queried line = .error e <->
      parseAddress field queried = .error e ∨
        (exists endpoint, parseAddress field queried = .ok endpoint) ∧
          parseRanges ((words line).drop 8) = .error e := by
  obtain ⟨id, address, flags, master, ping, pong, epoch, link, hwords⟩ :=
    exists_fields h
  have hsame : field = address := by
    rw [hwords] at hfield
    exact (Option.some.inj hfield).symm
  subst hsame
  unfold parseLine
  rw [hwords]
  dsimp only
  cases parseAddress field queried with
  | error e' => simp
  | ok endpoint =>
      cases hranges : parseRanges ((words line).drop 8) <;> simp [hranges]

/-- A line is refused with what is wrong with it. -/
theorem parseLine_eq_error_iff {line : List Char} {e : TopologyError} :
    parseLine queried line = .error e <-> Fault line e := by
  by_cases hfew : (words line).length < 8
  · rw [parseLine_of_short hfew]
    constructor
    · intro h
      cases h
      exact Fault.short hfew
    · intro h
      cases h with
      | short few => rfl
      | address enough => omega
      | slots enough => omega
  · have henough : 8 ≤ (words line).length := Nat.le_of_not_lt hfew
    obtain ⟨field, hfield⟩ : exists field, (words line)[1]? = some field :=
      ⟨_, List.getElem?_eq_getElem (Nat.lt_of_lt_of_le (by decide) henough)⟩
    have hsame {other : List Char} (hother : (words line)[1]? = some other) :
        other = field :=
      Option.some.inj (hother.symm.trans hfield)
    rw [parseLine_eq_error_of_fields henough hfield, parseAddress_eq_error_iff,
      exists_parseAddress_iff, parseRanges_eq_error_iff]
    constructor
    · rintro (⟨hbad, rfl⟩ | ⟨hgood, before, token, after, hcut, hfine, hbad⟩)
      · exact Fault.address henough hfield hbad
      · exact Fault.slots henough hfield hgood hcut hfine hbad
    · intro h
      cases h with
      | short few => exact absurd few hfew
      | address _ second bad =>
          cases hsame second
          exact Or.inl ⟨bad, rfl⟩
      | slots _ second good cut fine bad =>
          cases hsame second
          exact Or.inr ⟨good, _, _, _, cut, fine, bad⟩

/-- A text is refused with what is wrong with its first line that has a
fault. -/
theorem parse_eq_error_iff {text : String} {e : TopologyError} :
    parse text queried = .error e <->
      exists before line after, linesOf text.toList = before ++ line :: after ∧
        (forall other, other ∈ before -> forall e', ¬ Fault other e') ∧
          Fault line e := by
  rw [parse, parseLines_eq_mapM, mapM_eq_error_iff]
  simp only [ne_eq, parseLine_eq_error_iff]

/-- Reading gives back exactly the nodes written, and otherwise the fault of the
first line that has one. -/
theorem parse_listing (queried : Endpoint) :
    (forall (lines : List (Line × LineEnd)) (last : Line),
      (forall line, line ∈ lines.map Prod.fst ++ [last] ->
        line.Sound queried) ->
        parse (String.ofList (write lines last)) queried =
          .ok ((lines.map Prod.fst ++ [last]).filterMap Line.node?)) ∧
      forall (text : String) (e : TopologyError),
        parse text queried = .error e <->
          exists before line after,
            linesOf text.toList = before ++ line :: after ∧
            (forall other, other ∈ before -> forall e', ¬ Fault other e') ∧
              Fault line e := by
  constructor
  · intro lines last hsound
    refine parse_write (fun l hl => hsound l.1 ?_) (hsound last ?_)
    · exact List.mem_append_left _ (List.mem_map_of_mem hl)
    · exact List.mem_append_right _ List.mem_cons_self
  · intro text e
    exact parse_eq_error_iff

def resharding : List (Line × LineEnd) :=
  [(.row
      { node := Node.makeMaster "m" (.atAddress "fe80::1" 6379)
          [⟨0, 100⟩, ⟨9000, 9001⟩]
        busPort := ['1', '6', '3', '7', '9']
        hostname := some ['a', ',', '@']
        ping := ['0'], pong := ['0'], epoch := ['1'], link := ['u', 'p']
        tokens := [.owned ⟨0, 100⟩,
          .moving ['9', '3', '-', '<', '-', 'r'],
          .owned ⟨9000, 9001⟩] }, .returnFeed),
    (.blank [' ', '\t'], .feed),
    (.row
      { node := { Node.makeReplica "r" (.atAddress "h" 1) "m" with
          flags := .ofList [] }
        busPort := [], hostname := none
        ping := ['0'], pong := ['0'], epoch := ['1'], link := ['u', 'p']
        tokens := [] }, .feed)]

theorem parse_listing_resharding :
    write resharding (.blank []) =
        ("m fe80::1:6379@16379,a,@ master - 0 0 1 up 0-99 [93-<-r] 9000\r\n" ++
          " \t\nr h:1@ noflags m 0 0 1 up\n").toList ∧
      parse (String.ofList (write resharding (.blank []))) (.atAddress "q" 1) =
        .ok [Node.makeMaster "m" (.atAddress "fe80::1" 6379)
            [⟨0, 100⟩, ⟨9000, 9001⟩],
          { Node.makeReplica "r" (.atAddress "h" 1) "m" with
            flags := .ofList [] }] ∧
      parse "m h:1@ master - 0 0 1 up 5 7-6\nr h:x" (.atAddress "q" 1) =
        .error (.invalidRange 7 7) := by
  refine ⟨by decide, (parse_listing _).1 resharding (.blank []) ?_,
    ((parse_listing _).2 _ _).mpr ?_⟩
  · intro line hline
    simp only [resharding, List.map_cons, List.map_nil, List.cons_append,
      List.nil_append, List.mem_cons, List.not_mem_nil, or_false] at hline
    rcases hline with rfl | rfl | rfl | rfl
    · exact
        { id := by decide, host := by decide
          comma := by decide, atSign := by decide
          opening := by decide, closing := by decide
          password := rfl, resolved := rfl, timeout := rfl
          master := (fun h => nomatch h)
          slots := rfl, valid := by decide
          moving := by
            intro inner hinner
            have hinner : inner = ['9', '3', '-', '<', '-', 'r'] := by
              simpa using hinner
            rw [hinner]
            exact (show IsWord ['9', '3', '-', '<', '-', 'r'] by decide).solid
          busPort := (show IsWord ['1', '6', '3', '7', '9'] by decide).solid
          hostname := by
            intro name hname
            cases hname
            exact (show IsWord ['a', ',', '@'] by decide).solid
          ping := by decide, pong := by decide
          epoch := by decide, link := by decide }
    · exact ⟨by decide, by decide⟩
    · exact
        { id := by decide, host := by decide
          comma := by decide, atSign := by decide
          opening := by decide, closing := by decide
          password := rfl, resolved := rfl, timeout := rfl
          master := (fun h => by cases h; decide)
          slots := rfl, valid := by decide
          moving := (fun h => absurd h List.not_mem_nil)
          busPort := (fun _ hc => absurd hc List.not_mem_nil)
          hostname := (fun h => nomatch h)
          ping := by decide, pong := by decide
          epoch := by decide, link := by decide }
    · exact ⟨by decide, by decide⟩
  · let line : List Char := "m h:1@ master - 0 0 1 up 5 7-6".toList
    have hgood : IsAddress (addressPart "h:1@".toList) :=
      ⟨['h'], ['1'], 1, by decide, by
        decide, Decimal.denotes_digits 1, by decide⟩
    have htokens :
        ((words line).drop 8).filter (fun other => ¬ IsMoving other) =
          [['5']] ++ ['7', '-', '6'] :: [] := by
      decide
    have hfirst : Names ['5'] 5 5 :=
      .single (by decide) (Decimal.denotes_digits 5)
    have hsecond : Names ['7', '-', '6'] 7 6 :=
      .bounds (rfl : ['7', '-', '6'] = ['7'] ++ '-' :: ['6']) (by decide)
        (Decimal.denotes_digits 7) (Decimal.denotes_digits 6)
    have hfine (token : List Char) (htoken : token ∈ [['5']])
        (e : TopologyError) : ¬ TokenFault token e := by
      rw [List.mem_singleton.mp htoken, ← parseSlots_eq_error_iff,
        parseSlots_of_names hfirst, SlotRange.inclusive_eq, if_pos (by decide)]
      exact fun h => nomatch h
    have hfault : Fault line (.invalidRange 7 7) :=
      .slots (by decide) (by decide) hgood htokens hfine
        (.range hsecond (by decide))
    exact ⟨[], line, ["r h:x".toList], by
      decide, fun _ hother => absurd hother List.not_mem_nil, hfault⟩

end Listing
end SlotCluster
