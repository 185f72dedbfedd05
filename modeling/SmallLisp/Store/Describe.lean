import SmallLisp.Store
import SmallLisp.Text.Visible

/-!
# `SmallLisp.Store.Describe` — a scope in words

## Contents
* **Description** `Store.describe`: the names that a scope binds itself, and whether it lies inside another.
-/

namespace SmallLisp.Store

/-- A scope in words. -/
def describe (st : Store) (s : ScopeId) : String :=
  let inside := if (st.outer? s).isSome then "true" else "false"
  "Environment \x7b symbols: " ++ Text.showNames (st.names s) ++ ", has_outer: " ++ inside ++ " \x7d"

end SmallLisp.Store
