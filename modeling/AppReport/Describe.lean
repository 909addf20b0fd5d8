import AppReport.Gather

/-!
# Describing an application

A description gathers four reads. Only when all of them have succeeded are the views built, first
those of the environments and then those of the services.
-/

namespace AppReport

/-! ### Views -/

/-- The pipelines that a listing goes through: a text has its characters, bytes their numbers, and
an object its keys. -/
def Listing.items : Listing → Except Failure (List PipelineItem)
  | records ps => .ok (ps.map .record)
  | raw (.list vs) => .ok (vs.map .raw)
  | raw (.text s) => .ok (s.toList.map fun c => .raw (.text (String.singleton c)))
  | raw (.bytes b) => .ok (b.map fun x => .raw (.int x.toNat))
  | raw (.object fields) => .ok (fields.map fun (key, _) => .raw (.text key))
  | raw v => .error (.of .typeMismatch ("'" ++ v.kindName ++ "' object is not iterable"))

/-- The description that four results give: the views of environments come first, then those of
services, then the description itself. -/
def Findings.describe (found : Findings) : Except Failure Description :=
  match mapUntilFailure EnvironmentView.ofRecord (found .environments) with
  | .error e => .error e
  | .ok environments =>
    match mapUntilFailure WorkloadView.ofRecord (found .services) with
    | .error e => .error e
    | .ok services =>
      match Listing.items (found .pipelines) with
      | .error e => .error e
      | .ok pipelines =>
        Description.assemble (found .app).name (found .app).domain environments services pipelines

/-- Describes an application. The name is a field of all that is logged meanwhile. -/
def describe {σ : Type} (around : Surroundings σ) (name : Value) (s : Session σ) :
    Except Failure Description × Session σ :=
  let now : Log.Context := [("app", name)]
  let s := around.note now (Gather.trace "Describing application" []) s
  match Gather.gather around now name (around.schedule s.world) s with
  | (.error f, s) => (.error f, s)
  | (.ok found, s) => (found.describe, s)

end AppReport
