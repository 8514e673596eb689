import NamingAdvice.Advisory
import NamingAdvice.Number.Digits

/-! The survey of a forest hands every advisory to a sink as soon as it is found: parents
before their children, siblings in order. The sink may be any effect, one that gives up
included; what it is given is not kept.
-/

namespace NamingAdvice

/-- The path of the declaration at an index below a base. -/
def Survey.pathAt (base : Text) (index : Nat) : Text :=
  base ++ text "/" ++ Text.ofNat index

/-- The base of the paths of the children of a declaration. -/
def Survey.childBase (path : Text) : Text :=
  path ++ text "/children"

mutual

/-- Surveys a declaration at a path below a parent. -/
def Declaration.survey {m : Type → Type} [Monad m] (sink : Advisory → m Unit)
    (parent : Option Header) (path : Text)
    : Declaration → m Unit
  | declaration@⟨header, children⟩ => do
      (header.advice parent).forM (fun code => sink ⟨declaration, path, code⟩)
      Survey.siblings sink (some header) (Survey.childBase path) 0 children

/-- Surveys declarations side by side, from an index on. -/
def Survey.siblings {m : Type → Type} [Monad m] (sink : Advisory → m Unit)
    (parent : Option Header) (base : Text) (index : Nat)
    : List Declaration → m Unit
  | [] => pure ()
  | declaration :: rest => do
      declaration.survey sink parent (Survey.pathAt base index)
      Survey.siblings sink parent base (index + 1) rest

end

/-- Surveys a forest whose paths start with a base. -/
def survey {m : Type → Type} [Monad m] (sink : Advisory → m Unit) (base : Text)
    (forest : List Declaration)
    : m Unit :=
  Survey.siblings sink none base 0 forest

/-- What a sink says when it gives up. -/
inductive Survey.Stopped where
  | stopped
deriving DecidableEq, Repr

/-- A sink that keeps what it is given, the latest first, and gives up at its `limit`-th
advisory, which it keeps too.
-/
def Survey.recorder (limit : Option Nat) (advisory : Advisory)
    : ExceptT Survey.Stopped (StateM (List Advisory)) Unit := do
  modify (advisory :: ·)
  if some (← get).length == limit then throw .stopped

end NamingAdvice
