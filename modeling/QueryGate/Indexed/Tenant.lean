import QueryGate.Indexed.Run
import QueryGate.Question.Tenant

/-!
# Finding a tenant by steps

`Question.resolveTenant?` gives the tenant of a request.  On the way there the use of the fallback is
written down, which takes the digits of its id.
-/

namespace QueryGate
namespace Indexed

open Question

/-- The tenant of a request, if there is one. -/
def resolveTenant (question : List Char) (caller : Value) (fallback : Option Int) :
    Run (Option Tenant) :=
  match tenant? question with
  | some n => .ok (some ⟨n, .question⟩)
  | none =>
    match callerTenant? caller with
    | some n => .ok (some ⟨n, .caller⟩)
    | none =>
      match fallback with
      | none => .ok none
      | some n => do
        let _ ← decimalText n
        .ok (some ⟨n, .fallback⟩)

end Indexed
end QueryGate
