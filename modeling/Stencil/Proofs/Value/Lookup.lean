import Stencil.Value.Basic

/-!
# Following paths

- `Value.lookup_cons`, `Value.lookup_append`: **a path is followed key by key**.
-/

namespace Stencil.Value

/-- A path is followed from the value of its first key.  What is no dictionary has no keys, so it
makes no difference that such a value is not followed. -/
theorem lookup_cons (key : String) (path : List String) (v : Value) :
    v.lookup (key :: path) = (v.get? key).bind (lookup path) := by
  cases path with
  | nil =>
    rw [lookup]
    cases v.get? key <;> rfl
  | cons key' path =>
    rw [lookup]
    · cases v.get? key with
      | none => rfl
      | some inner =>
        cases inner with
        | record | element | own => rfl
        | null | scalar | list | series | stream => cases path <;> rfl
    · exact fun h => List.cons_ne_nil _ _ h

theorem lookup_append (path path' : List String) (v : Value) :
    v.lookup (path ++ path') = (v.lookup path).bind (lookup path') := by
  induction path generalizing v with
  | nil => rfl
  | cons key path ih =>
    rw [List.cons_append, lookup_cons, lookup_cons, Option.bind_assoc]
    congr 1
    funext inner
    exact ih inner

end Stencil.Value
