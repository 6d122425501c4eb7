import CheckWorker.Json.Shape.Tree
import CheckWorker.Json.Printer

/-!
# Tagged contents

A tagged text is an object with two keys: one holds the tag, a word that names a kind, and the other
the content, whose shape depends on the kind. A kind may have no content. The keys come in either
order: a content that comes first is set aside until the tag is known. Instead of the object an
array of tag and content will do.
-/

namespace CheckWorker.Json

/-- The kinds of a tagged text and their contents. -/
structure Tagging (κ : Type) where
  name : String
  tagKey : String
  contentKey : String
  kinds : List κ
  word : κ → String
  title : κ → String
  content : κ → Option Shape

def contentData : Option Shape → Type
  | none => Unit
  | some shape => shape.Data

namespace Tagging

variable {κ : Type} (t : Tagging κ)

def Data : Type :=
  (k : κ) × contentData (t.content k)

def words : List String :=
  t.kinds.map t.word

def kindAt (i : Fin t.words.length) : κ :=
  t.kinds.get (i.cast (List.length_map t.word))

/-- What a kind without content is called where its content is due. -/
def unitName (k : κ) : String :=
  "unit variant " ++ t.name ++ "::" ++ t.title k

def wholeName : String :=
  "adjacently tagged enum " ++ t.name

def readTag (depth : Nat) : Reader κ := fun text =>
  (readChoice t.words depth text).map fun (i, rest) => (t.kindAt i, rest)

end Tagging

/-- Reads null where a kind has no content. Brackets are entered before they are refused. -/
def readUnit (expected : String) (depth : Nat) : Reader Unit := fun text =>
  match skipSpace text with
  | '[' :: rest =>
      openBracket depth '[' rest fun _ =>
        .error (.before (.wrongKind .sequence expected) (afterArray rest))
  | '{' :: rest =>
      openBracket depth '{' rest fun _ =>
        .error (.before (.wrongKind .map expected) (afterObject rest))
  | text =>
      match readScalar text with
      | .ok (.null, rest) => .ok ((), rest)
      | .ok (v, rest) => .error (.before (.wrongKind v.found expected) rest)
      | .error f => .error f

def readContent (expected : String) (depth : Nat) : (o : Option Shape) → Reader (contentData o)
  | none => readUnit expected depth
  | some shape => shape.read depth

def contentOfValue (expected : String) : (o : Option Shape) → Value → Except Cause (contentData o)
  | none, .null => .ok ()
  | none, v => .error (.wrongKind v.found expected)
  | some shape, v => shape.ofValue .setAside v

def noContent (key : String) : (o : Option Shape) → Except Cause (contentData o)
  | none => .ok ()
  | some shape =>
      match shape.absent? with
      | some d => .ok d
      | none => .error (.missing key)

/-- Goes to the next key that is one of two, passing over others with their values; the answer is
whether it is the first of them. Without one, the closing bracket has been taken. -/
def nextOf (a b : String) : (rounds : List Char) → (first : Bool) → Reader (Option Bool)
  | [], _, text => .error (.atNext .endInObject text)
  | _ :: rounds, first, text => do
      let (key, text) ← nextKey first text
      match key with
      | none => return (none, text)
      | some k =>
          if k = a then return (some true, text)
          else if k = b then return (some false, text)
          else do
            let text ← skipValue (← takeColon text)
            nextOf a b rounds false text

namespace Tagging

variable {κ : Type} (t : Tagging κ)

def nextPart (first : Bool) : Reader (Option Bool) := fun text =>
  nextOf t.tagKey t.contentKey text first text

def closeParts (d : t.Data) : Reader t.Data := fun text => do
  let (part, text) ← t.nextPart false text
  match part with
  | none => return (d, text)
  | some true => throw (.before (.duplicate t.tagKey) (afterObject text))
  | some false => throw (.before (.duplicate t.contentKey) (afterObject text))

def readTagFirst (depth : Nat) : Reader t.Data := fun text => do
  let (k, text) ← t.readTag depth (← takeColon text)
  let (part, text) ← t.nextPart false text
  match part with
  | some true => throw (.before (.duplicate t.tagKey) (afterObject text))
  | some false =>
      let (d, text) ← readContent (t.unitName k) depth (t.content k) (← takeColon text)
      t.closeParts ⟨k, d⟩ text
  | none => place text ((noContent t.contentKey (t.content k)).map fun d => ⟨k, d⟩)

def readContentFirst (depth : Nat) : Reader t.Data := fun text => do
  let (v, text) ← readValue depth (← takeColon text)
  let (part, text) ← t.nextPart false text
  match part with
  | some false => throw (.before (.duplicate t.contentKey) (afterObject text))
  | none => throw (.before (.missing t.tagKey) text)
  | some true =>
      let (k, text) ← t.readTag depth (← takeColon text)
      match contentOfValue (t.unitName k) (t.content k) v with
      | .ok d => t.closeParts ⟨k, d⟩ text
      | .error cause => throw (.before cause (afterObject text))

def read (depth : Nat) : Reader t.Data := fun text =>
  match skipSpace text with
  | '{' :: rest =>
      openBracket depth '{' rest fun depth => do
        let (part, rest) ← t.nextPart true rest
        match part with
        | some true => t.readTagFirst depth rest
        | some false => t.readContentFirst depth rest
        | none => throw (.before (.missing t.tagKey) rest)
  | '[' :: rest =>
      openBracket depth '[' rest fun depth => do
        let (more, rest) ← nextItem true rest
        if !more then throw (.before (.wrongLength 0 t.wholeName) rest)
        let (k, rest) ← t.readTag depth rest
        let (more, rest) ← nextItem false rest
        if !more then throw (.before (.wrongLength 1 t.wholeName) rest)
        let (d, rest) ← readContent (t.unitName k) depth (t.content k) rest
        let rest ← closeArray rest
        return (⟨k, d⟩, rest)
  | text => .error (mismatch t.wholeName text)

def ofText (text : String) : Except Failure t.Data :=
  readWhole (t.read depthLimit) text.toList

def contentEntries : (o : Option Shape) → contentData o → List (List Char)
  | none, () => []
  | some shape, d => [printEntry t.contentKey (shape.print d)]

def print (d : t.Data) : List Char :=
  printObject (printEntry t.tagKey (printText (t.word d.1)) :: t.contentEntries (t.content d.1) d.2)

def toText (d : t.Data) : String :=
  String.ofList (t.print d)

end Tagging

end CheckWorker.Json
