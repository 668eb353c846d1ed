import SlotCluster.Text.Decimal
import SlotCluster.Text.Quoted
import SlotCluster.Text.Split

/-!
# Protocol values

The values that requests and replies are made of, and their encoding: a type
byte, a line that ends with carriage return and line feed, and for bulk strings
and arrays the content that the line announces.

Two values stand for nothing: `null`, and a bulk string without content.  They
have one encoding.
-/

namespace SlotCluster
namespace Resp

/-- A value of the protocol. -/
inductive Value where
  | simple (text : Bytes)
  | error (text : Bytes)
  | integer (value : Int64)
  | bulk (content : Option Bytes)
  | array (items : List Value)
  | null
  deriving Inhabited, BEq, Repr

namespace Value

def ok : Value :=
  .simple [0x4F, 0x4B]

def bulkText (text : String) : Value :=
  .bulk (some (Utf8.encode text))

def errorText (text : String) : Value :=
  .error (Utf8.encode text)

/-- Whether the value is the status reply of a successful command. -/
def isOk : Value -> Bool
  | .simple text => text == [0x4F, 0x4B]
  | _ => false

def isError : Value -> Bool
  | .error _ => true
  | _ => false

def integer? : Value -> Option Int64
  | .integer n => some n
  | _ => none

def text? : Value -> Option String
  | .simple text => some (Utf8.decodeLossy text)
  | .bulk (some content) => some (Utf8.decodeLossy content)
  | _ => none

/-! ## Encoding -/

def lineEnd : Bytes :=
  [0x0D, 0x0A]

def asciiBytes (text : List Char) : Bytes :=
  text.map (fun c => UInt8.ofNat c.toNat)

def numberLine (kind : UInt8) (n : Int) : Bytes :=
  kind :: (asciiBytes (Decimal.signedDigits n) ++ lineEnd)

mutual

def encode : Value -> Bytes
  | .simple text => 0x2B :: (text ++ lineEnd)
  | .error text => 0x2D :: (text ++ lineEnd)
  | .integer n => numberLine 0x3A n.toInt
  | .bulk (some content) => numberLine 0x24 content.length ++ content ++ lineEnd
  | .bulk none => numberLine 0x24 (-1)
  | .null => numberLine 0x24 (-1)
  | .array items => numberLine 0x2A items.length ++ encodeAll items

def encodeAll : List Value -> Bytes
  | [] => []
  | v :: rest => encode v ++ encodeAll rest

end

/-! ## Description -/

mutual

def describe : Value -> String
  | .simple text => "SimpleString(" ++ Text.quotedBytes text ++ ")"
  | .error text => "Error(" ++ Text.quotedBytes text ++ ")"
  | .integer n => "Integer(" ++ toString n.toInt ++ ")"
  | .bulk (some content) =>
      "BulkString(Some(" ++ Text.quotedBytes content ++ "))"
  | .bulk none => "BulkString(None)"
  | .array items => "Array([" ++ Text.joinTexts ", " (describeAll items) ++ "])"
  | .null => "Null"

def describeAll : List Value -> List String
  | [] => []
  | v :: rest => describe v :: describeAll rest

end

end Value
end Resp
end SlotCluster
