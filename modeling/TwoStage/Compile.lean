import TwoStage.Artifact.Emission

/-!
# Compiling a document

A document is resolved, its compose file is rendered, and all artifacts are emitted. Nothing is
written.
-/

namespace TwoStage

/-- The artifacts of a document, and the comments for which new key pairs were asked. -/
structure Compiled where
  artifacts : Artifacts
  requests : List String
deriving DecidableEq, Repr

def compile (ctx : Context) (generator : Generator) (d : Document) : Outcome Compiled := do
  let compilation ← Compilation.prepare ctx generator d
  let tree ← Layout.render compilation
  let artifacts ← Emission.emit compilation tree
  return ⟨artifacts, compilation.credentials.requests⟩

def compileFile (ctx : Context) (generator : Generator) (path : Path) : Outcome Compiled := do
  compile ctx generator (← Document.ofFile ctx path)

end TwoStage
