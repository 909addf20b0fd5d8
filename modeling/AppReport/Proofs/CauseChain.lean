import AppReport.Failure

/-!
# What a chain of causes says

The text of a failure goes down the chain of its causes as long as there are steps without a detail,
and the first fault of another kind has the last word (`Failure.chainText_append`): what lies below
it is not told. The search for an application that was not found does not stop there, so that a
failure can be of that kind without saying so (`Failure.step_tells`).

There is a text only if there is room for every cause that is gone down to (`Failure.text?_eq`). The
room is limited, so not every chain has one (`Failure.text?_longChain`).
-/

namespace AppReport

namespace Failure

/-- An application that was not found, below the fault that has the last word. -/
example :
    let f : Failure := ⟨.step ⟨.storeAccess, "list environments", .text "my-app", none⟩,
      [.step ⟨.storeAccess, "read table", .null, some ""⟩,
        .other .unknownApplication "application my-app not found"]⟩
    f.text = "list environments my-app: read table" ∧ f.isNotFound = true := by
  decide

end Failure

end AppReport
