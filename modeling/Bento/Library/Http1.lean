import Bento.Library.Decimal
import Mathlib.Data.List.DropRight

/-! Request heads of HTTP/1 as they are written and as they are read. A head ends with an
empty line; what follows it is the business of whoever reads bodies. -/

namespace Bento.Library.Http1
open Decimal List Option

structure Head where
  method : Text
  target : Text
  fields : List (Text × Text)

def lineEnd : Text := ['\r', '\n']

def version10 : Text := "HTTP/1.0".toList
def version11 : Text := "HTTP/1.1".toList

def encodeFields : List (Text × Text) → Text
  | [] => lineEnd
  | (name, value) :: fields => (name ++ ':' :: ' ' :: value) ++ (lineEnd ++ encodeFields fields)

def Head.encode (head : Head) : Text :=
  (head.method ++ ' ' :: (head.target ++ ' ' :: version11)) ++ (lineEnd ++ encodeFields head.fields)

def takeLine (text : Text) : Option (Text × Text) :=
  match splitOnce '\r' text with
  | some (line, '\n' :: rest) => some (line, rest)
  | _ => none

def isBlank (char : Char) : Bool := char = ' ' ∨ char = '\t'

def strip (text : Text) : Text := (text.dropWhile isBlank).rdropWhile isBlank

def requestLine (line : Text) : Option (Text × Text) := do
  let (method, rest) ← splitOnce ' ' line
  let (target, version) ← splitOnce ' ' rest
  if version = version11 ∨ version = version10 then some (method, target) else none

def fieldLine (line : Text) : Option (Text × Text) := (splitOnce ':' line).map fun (name, value) => (name, strip value)

def fieldLines : Nat → Text → Option (List (Text × Text) × Text)
  | 0, _ => none
  | fuel + 1, text => do
    let (line, rest) ← takeLine text
    if line = [] then some ([], rest)
    else do
      let field ← fieldLine line
      let (fields, rest) ← fieldLines fuel rest
      some (field :: fields, rest)

def parse (text : Text) : Option (Head × Text) := do
  let (line, rest) ← takeLine text
  let (method, target) ← requestLine line
  let (fields, rest) ← fieldLines rest.length rest
  some (⟨method, target, fields⟩, rest)

def ValidField (field : Text × Text) : Prop :=
  ':' ∉ field.1 ∧ '\r' ∉ field.1 ∧ '\r' ∉ field.2 ∧ strip (' ' :: field.2) = field.2

structure Head.Valid (head : Head) : Prop where
  method : ' ' ∉ head.method ∧ '\r' ∉ head.method
  target : ' ' ∉ head.target ∧ '\r' ∉ head.target
  fields : ∀ field ∈ head.fields, ValidField field

theorem takeLine_append {line : Text} (absent : '\r' ∉ line) (rest : Text) :
    takeLine (line ++ (lineEnd ++ rest)) = some (line, rest) := by
  have split := splitOnce_append absent ('\n' :: rest)
  simp only [takeLine, lineEnd, cons_append, nil_append, split]

theorem fieldLine_encode {field : Text × Text} (valid : ValidField field) :
    fieldLine (field.1 ++ ':' :: ' ' :: field.2) = some field := by
  obtain ⟨colon, -, -, stripped⟩ := valid
  simp only [fieldLine, splitOnce_append colon, map_some, stripped]

theorem fieldLines_encode {fields : List (Text × Text)} (valid : ∀ field ∈ fields, ValidField field) {fuel : Nat}
    (enough : fields.length < fuel) (rest : Text) :
    fieldLines fuel (encodeFields fields ++ rest) = some (fields, rest) := by
  induction fields generalizing fuel with
  | nil =>
    obtain ⟨fuel, rfl⟩ := Nat.exists_eq_succ_of_ne_zero (Nat.ne_of_gt enough)
    have line := takeLine_append (not_mem_nil (a := '\r')) rest
    simp only [nil_append] at line
    simp [fieldLines, encodeFields, line]
  | cons field fields ih =>
    obtain ⟨fuel, rfl⟩ := Nat.exists_eq_succ_of_ne_zero (Nat.ne_of_gt (Nat.zero_lt_of_lt enough))
    have first := valid field mem_cons_self
    have absent : '\r' ∉ field.1 ++ ':' :: ' ' :: field.2 := by simp [first.2.1, first.2.2.1]
    have line := takeLine_append absent (encodeFields fields ++ rest)
    have later := ih (fun other listed => valid other (mem_cons_of_mem field listed)) (Nat.lt_of_succ_lt_succ enough)
    simp only [encodeFields, append_assoc, cons_append] at line ⊢
    simp [fieldLines, line, fieldLine_encode first, later]

theorem length_lt_encodeFields (fields : List (Text × Text)) : fields.length < (encodeFields fields).length := by
  induction fields with
  | nil => decide
  | cons field fields ih =>
    simp only [encodeFields, lineEnd, length_append, length_cons]
    omega

theorem requestLine_encode {method target : Text} (first : ' ' ∉ method) (second : ' ' ∉ target) :
    requestLine (method ++ ' ' :: (target ++ ' ' :: version11)) = some (method, target) := by
  simp [requestLine, splitOnce_append first, splitOnce_append second]

theorem parse_encode {head : Head} (valid : head.Valid) (rest : Text) :
    parse (head.encode ++ rest) = some (head, rest) := by
  obtain ⟨⟨first, line⟩, ⟨second, ending⟩, fields⟩ := valid
  have absent : '\r' ∉ head.method ++ ' ' :: (head.target ++ ' ' :: version11) := by
    have plain : '\r' ∉ version11 := by decide
    simp [line, ending, plain]
  have taken := takeLine_append absent (encodeFields head.fields ++ rest)
  have enough : head.fields.length < (encodeFields head.fields ++ rest).length := by
    have short := length_lt_encodeFields head.fields
    rw [length_append]
    omega
  have read := fieldLines_encode fields enough rest
  have request := requestLine_encode first second
  simp only [Head.encode, append_assoc, cons_append] at taken request ⊢
  simp only [parse, taken, request, read, bind_eq_bind, bind_some]

/-- The first line of what a client of HTTP/2 begins with. It looks like a request of a
version that a server of HTTP/1 does not know. -/
def prefaceLine : Text := "PRI * HTTP/2.0".toList

def preface : Text := prefaceLine ++ (lineEnd ++ "\r\nSM\r\n\r\n".toList)

theorem parse_preface (rest : Text) : parse (preface ++ rest) = none := by
  have absent : '\r' ∉ prefaceLine := by decide
  have taken := takeLine_append absent ("\r\nSM\r\n\r\n".toList ++ rest)
  have refused : requestLine prefaceLine = none := by decide
  simp only [parse, preface, append_assoc, taken, refused, bind_eq_bind, bind_some, bind_none]

end Bento.Library.Http1
