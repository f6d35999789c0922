import RecordAlgebra.Source.Basic

/-!
# Scripted sources

A scripted source has fixed rows and answers offers by fixed rules. It keeps a
list of what it was offered, and saving and deleting do nothing.
-/

namespace RecordAlgebra.Source.Scripted

inductive Answer where
  | output (output : NativeOutput)
  | failure (message : String)
  | nothing

/-- Applies to the expression with this text, or to every expression if the
text is a star. -/
structure Rule where
  condition : String
  answer : Answer
  remainder : Option Expr

structure Script where
  rows : List Row
  scanFailure : Option String
  rules : List Rule

def Rule.applies (rule : Rule) (text : String) : Bool :=
  rule.condition == text || rule.condition == "*"

def Rule.execute (rule : Rule) : EvalM Execution :=
  match rule.answer, rule.remainder with
  | .output output, none => pure (.accepted output)
  | .output output, some remainder => pure (.partly output remainder)
  | .failure message, _ => EvalM.fail (.reported .internal message)
  | .nothing, _ => pure .declined

def scan (ref : SourceRef) (script : Script) : EvalM (List Row) := do
  ref.modifyStore fun store => { store with scans := store.scans + 1 }
  match script.scanFailure with
  | some message => EvalM.fail (.reported .internal message)
  | none => pure script.rows

def offer (ref : SourceRef) (script : Script) (e : Expr) : EvalM Execution := do
  let text := e.render (← EvalM.view)
  ref.modifyStore fun store => { store with offered := store.offered ++ [text] }
  match script.rules.find? fun rule => rule.applies text with
  | some rule => rule.execute
  | none => pure .declined

def create (ref : SourceRef) (script : Script) : Source where
  ref := ref
  deferred := []
  scan := scan ref script
  offer := offer ref script
  save _ := pure ()
  delete _ := pure ()

end RecordAlgebra.Source.Scripted
