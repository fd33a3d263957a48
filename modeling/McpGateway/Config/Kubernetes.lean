import McpGateway.Foundation.Go

/-!
# Kubernetes

What the config writer and the controllers have in common: the errors of the API server, as far as
the code tells them apart, and the names of objects.
-/

namespace McpGateway.Kubernetes

inductive Reason where
  | notFound | alreadyExists | conflict | other
  deriving DecidableEq, Repr

structure Err where
  text : String
  reason : Option Reason := none
  deriving DecidableEq, Repr

namespace Err

/-- `fmt.Errorf("…%w", e)`, the wrapped error standing at the end. -/
def wrap (e : Err) (before : String) : Err := { e with text := before ++ e.text }

/-- `apierrors.IsNotFound(e)` -/
def isNotFound (e : Err) : Bool := e.reason = some .notFound

/-- `apierrors.IsConflict(e)` -/
def isConflict (e : Err) : Bool := e.reason = some .conflict

end Err

/-- `types.NamespacedName` -/
structure NamespacedName where
  ns : String
  name : String
  deriving DecidableEq, Repr

/-- `config.NamespaceName`: the config secret of a namespace. -/
def namespaceName (ns : String) : NamespacedName := ⟨ns, "mcp-gateway-config"⟩

lemma namespaceName_inj {a b : String} : namespaceName a = namespaceName b ↔ a = b := by
  simp [namespaceName]

end McpGateway.Kubernetes
