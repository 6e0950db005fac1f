import LayeredConfig.Change.Request

/-!
A sample backend that keeps texts and takes or refuses each commit by a script.
-/

namespace LayeredConfig.Sample

/-- The texts of a scripted backend, and how often it was asked to take changes. -/
structure Ledger where
  commits : Nat
  target : KeyMap String

/-- Takes changes, unless the script says that this commit is refused. A script that has run out
refuses nothing. -/
def Ledger.take (refusals : List Bool) (changes : ChangeSet) :
    ExceptT ConfigError (StateM Ledger) Unit := do
  let l ← get
  let count := l.commits + 1
  if refusals[l.commits]?.getD false then
    set { l with commits := count }
    throw (.source "scripted" s!"failure {count}" none)
  else set (Ledger.mk count (changes.applyTo l.target))

def scripted (tag : Tag) (backend : String) (refusals : List Bool) :
    ChangeRequest (StateM Ledger) :=
  .create tag backend (Ledger.take refusals)

end LayeredConfig.Sample
