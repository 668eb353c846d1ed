import SlotCluster.Command
import SlotCluster.Proofs.Resp.RoundTrip
import SlotCluster.Proofs.Text.Casing
import SlotCluster.Proofs.Text.Encoding

/-!
# Requests on the wire

A request is sent as one array of bulk strings, and whoever reads it finds that
array and nothing else, whatever bytes the arguments are made of.  The request
that the array stands for is the one that was sent: a name that is in upper case
is still the same name after it has been written, read and brought into upper
case once more.
-/

namespace SlotCluster
namespace Command

open Resp (Value parse Stream Leaves maxArrayLength)
open Resp.Value (encode encodeAll Encodable)

/-- The commands that can come about: from a name and arguments, from a full
list of arguments, or from another command of which some keys are kept. -/
inductive Built : Command -> Prop where
  | make (name : String) (args : List Bytes) : Built (make name args)
  | ofArgs {args : List Bytes} {c : Command} (read : ofArgs args = .ok c) :
      Built c
  | select {c : Command} (built : Built c) (positions : List Nat) :
      Built (c.selectKeyGroups positions)

theorem Built.upperCase_name {c : Command} (h : Built c) :
    Text.upperCase c.name = c.name := by
  induction h with
  | make name args => exact Text.upperCase_upperCase name
  | @ofArgs args c read =>
      cases args with
      | nil => cases read
      | cons name args =>
          rw [Command.ofArgs] at read
          split at read
          · cases read
          · cases read
            exact Text.upperCase_upperCase _
  | @select c built positions ih =>
      unfold selectKeyGroups
      split
      · exact ih
      · exact ih

/-! ## The array that is sent -/

def bulks (contents : List Bytes) : List Value :=
  contents.map (fun content => .bulk (some content))

theorem toValue_eq (c : Command) :
    c.toValue = .array (bulks (Utf8.encode c.name :: c.args)) :=
  rfl

theorem length_lt_of_mem_bulks {contents : List Bytes} {content : Bytes}
    (h : content ∈ contents) :
    content.length < (encodeAll (bulks contents)).length := by
  induction contents with
  | nil => cases h
  | cons first more ih =>
      rw [bulks, List.map_cons, encodeAll, encode, List.length_append,
        List.length_append, List.length_append]
      have hend : Resp.Value.lineEnd.length = 2 := rfl
      rcases List.mem_cons.mp h with heq | hmem
      · rw [heq]
        omega
      · have hlt := ih hmem
        rw [bulks] at hlt
        omega

theorem norm_bulks (contents : List Bytes) :
    (bulks contents).map Value.norm = bulks contents := by
  rw [bulks, List.map_map]
  rfl

theorem encodable_bulks {contents : List Bytes}
    (hcount : contents.length ≤ maxArrayLength)
    (hmemory : (encode (.array (bulks contents))).length < 2 ^ 63) :
    Encodable (.array (bulks contents)) := by
  rw [encode, List.length_append] at hmemory
  have hitems : (bulks contents).length ≤ maxArrayLength := by
    rw [bulks, List.length_map]
    exact hcount
  refine .array hitems (fun item hitem => ?_)
  rcases List.mem_map.mp hitem with ⟨content, hcontent, heq⟩
  have hlt := length_lt_of_mem_bulks hcontent
  rw [← heq]
  exact .bulk (by omega)

theorem arguments_bulks (contents : List Bytes) :
    (bulks contents).mapM argument? = some contents := by
  induction contents with
  | nil => rfl
  | cons content more ih =>
      rw [bulks] at ih
      rw [bulks, List.map_cons, List.mapM_cons, ih]
      rfl

/-- The request that a sent command stands for is the command, unless a key
lacks what belongs to it. -/
theorem ofValue_toValue {c : Command} (h : Text.upperCase c.name = c.name) :
    ofValue c.toValue = c.checkArity.map (fun _ => c) := by
  have hmake : make (Utf8.decodeLossy (Utf8.encode c.name)) c.args = c := by
    rw [Utf8.decodeLossy_encode, make, h]
  rw [toValue_eq]
  simp only [ofValue, arguments_bulks, ofArgs, hmake]
  cases c.checkArity with
  | error e => rfl
  | ok _ => rfl

/-- A request that was sent is read as one array of bulk strings, the name and
then the arguments, and no byte behind it is touched.  The array stands for the
request itself.  The encoding has to be a byte string in memory, and none is
longer than the bound here. -/
theorem request_of_sent {c : Command} {limit : Nat} {s : Stream} {rest : Bytes}
    (hbuilt : Built c) (hcount : c.args.length ≤ 1048575)
    (hmemory : (encode c.toValue).length < 2 ^ 63)
    (hlimit : (encode c.toValue).length ≤ limit)
    (hbytes : s.bytes = encode c.toValue ++ rest) :
    (exists t, parse limit s =
        (.ok (.array
          (.bulk (some (Utf8.encode c.name)) ::
            c.args.map (fun arg => .bulk (some arg)))), t) ∧
          Leaves s rest t) ∧
      ofValue
        (.array (.bulk (some (Utf8.encode c.name)) ::
          c.args.map (fun arg => .bulk (some arg)))) =
        c.checkArity.map (fun _ => c) := by
  constructor
  · have hitems : (Utf8.encode c.name :: c.args).length ≤ maxArrayLength :=
      Nat.succ_le_succ hcount
    rw [toValue_eq] at hmemory hlimit hbytes
    rcases Resp.parse_of_encodable (encodable_bulks hitems hmemory) hbytes
      hlimit with ⟨t, ht, hleaves⟩
    rw [Resp.Value.norm_array, norm_bulks] at ht
    exact ⟨t, ht, hleaves⟩
  · exact ofValue_toValue hbuilt.upperCase_name

def posingPair : Command :=
  make "mſet" [[0x0D, 0x0A], [0x2A, 0x31, 0x0D, 0x0A]]

theorem request_of_sent_posing :
    (exists t, parse 64
      (.ofPieces [encode posingPair.toValue, [0x2A]] .closed) =
        (.ok (.array
          [.bulk (some [0x4D, 0x53, 0x45, 0x54]), .bulk (some [0x0D, 0x0A]),
            .bulk (some [0x2A, 0x31, 0x0D, 0x0A])]), t) ∧ t.bytes = [0x2A]) ∧
      ofValue
        (.array
          [.bulk (some [0x4D, 0x53, 0x45, 0x54]), .bulk (some [0x0D, 0x0A]),
            .bulk (some [0x2A, 0x31, 0x0D, 0x0A])]) = .ok posingPair := by
  have hbytes :
      (Stream.ofPieces [encode posingPair.toValue, [0x2A]] .closed).bytes =
        encode posingPair.toValue ++ [0x2A] :=
    rfl
  have hlimit : (encode posingPair.toValue).length ≤ 64 := by decide
  have hname : Utf8.encode posingPair.name = [0x4D, 0x53, 0x45, 0x54] := by
    decide
  have harity : posingPair.checkArity = .ok () := by decide
  have hbuilt : Built posingPair := .make _ _
  rcases request_of_sent hbuilt (by decide) (by decide) hlimit hbytes with
    ⟨⟨t, ht, hleaves⟩, hread⟩
  rw [hname] at ht hread
  rw [harity] at hread
  exact ⟨⟨t, ht, hleaves.bytes⟩, hread⟩

end Command
end SlotCluster
