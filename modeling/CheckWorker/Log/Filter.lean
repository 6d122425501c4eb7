import CheckWorker.Log.Level

/-!
# Log filters

A filter is a list of directives, each of which gives a threshold to the targets that begin in a
certain way. The most specific directive that fits a target decides, and of two for the same
beginning the later one. A target that no directive fits lets nothing through.
-/

namespace CheckWorker

structure Directive where
  start : List Char
  threshold : Threshold
  deriving DecidableEq

abbrev Filter := List Directive

namespace Directive

def fits (d : Directive) (target : List Char) : Bool :=
  d.start.isPrefixOf target

/-- A threshold after an equals sign; without one everything is let through. -/
def thresholdAfter? (text : List Char) : Option Threshold :=
  if text = [] then some (some .trace) else Threshold.ofText? text

/-- The directive of a word: a threshold for all targets, or a target that lets everything through.
-/
def ofWord (word : List Char) : Directive :=
  match Threshold.ofText? word with
  | some threshold => ⟨[], threshold⟩
  | none => ⟨word, some .trace⟩

def canBegin (c : Char) : Bool :=
  c == '[' || c == '-' || c == ':' || c == '_' || c.isAlphanum || 127 < c.toNat

/-- The directives of a text between commas: one, none if it is about spans, of which there are none
here, or nothing at all if the text makes no sense. -/
def ofText? (text : List Char) : Option (List Directive) :=
  let start := text.takeWhile fun c => c ≠ '=' ∧ c ≠ '['
  match text.dropWhile fun c => c ≠ '=' ∧ c ≠ '[' with
  | [] => some [ofWord start]
  | '=' :: level => (thresholdAfter? level).map fun threshold => [⟨start, threshold⟩]
  | _ :: span =>
      match span.dropWhile (· ≠ ']') with
      | [']'] => some []
      | ']' :: '=' :: level => (thresholdAfter? level).map fun _ => []
      | _ => none

def read? (text : List Char) : Option (List Directive) :=
  if text.head?.any canBegin then ofText? text else none

end Directive

namespace Filter

/-- The pieces of a text between commas, after the piece held backwards in `piece`. -/
def piecesFrom (piece : List Char) : List Char → List (List Char)
  | [] => [piece.reverse]
  | c :: text =>
      if c = ',' then piece.reverse :: piecesFrom [] text else piecesFrom (c :: piece) text

/-- The filter that a text describes. Empty pieces count for nothing, and one piece that makes no
sense spoils the whole. -/
def ofText? (text : String) : Option Filter := do
  let pieces := (piecesFrom [] text.toList).filter (· ≠ [])
  return (← pieces.mapM Directive.read?).flatten

def moreSpecific (d e : Directive) : Directive :=
  if d.start.length ≤ e.start.length then e else d

def decisive? (f : Filter) (target : List Char) : Option Directive :=
  (f.filter (·.fits target)).foldl (fun d e => some ((d.map (moreSpecific · e)).getD e)) none

def passes (f : Filter) (level : Level) (target : String) : Bool :=
  level.passes ((f.decisive? target.toList).bind (·.threshold))

def standard : Filter :=
  [⟨"pycheck_worker".toList, some .info⟩, ⟨"pycheck_protocol".toList, some .info⟩]

def warnings : Filter :=
  [⟨[], some .warn⟩]

/-- The filter that a variable describes; one that makes no sense counts for nothing. -/
def ofVariable (value : Option String) : Filter :=
  (value.bind ofText?).getD standard

example : ofText? "other=trace,error" =
    some [⟨"other".toList, some .trace⟩, ⟨[], some .error⟩] := by decide
example : ofText? "nonsense=bogus" = none := by decide
example : passes [⟨[], some .error⟩, ⟨['a'], some .debug⟩] .debug "ab" = true := by decide

end Filter

end CheckWorker
