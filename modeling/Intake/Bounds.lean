import Intake.Rejection.Basic

namespace Intake

/--
Whether a number violates the limit. Nothing violates a bound that is `nan`.
-/
def Limit.violatedBy (limit : Limit) (bound n : Double) : Bool :=
  match limit with
  | gt => n.le bound
  | gte => n.lt bound
  | lt => bound.le n
  | lte => bound.lt n

structure Bounds where
  gt : Option Double := none
  gte : Option Double := none
  lt : Option Double := none
  lte : Option Double := none
deriving DecidableEq

namespace Bounds

def get (bounds : Bounds) : Limit → Option Double
  | .gt => bounds.gt
  | .gte => bounds.gte
  | .lt => bounds.lt
  | .lte => bounds.lte

def set (bounds : Bounds) (limit : Limit) (bound : Double) : Bounds :=
  match limit with
  | .gt => { bounds with gt := some bound }
  | .gte => { bounds with gte := some bound }
  | .lt => { bounds with lt := some bound }
  | .lte => { bounds with lte := some bound }

def setIfGiven (bounds : Bounds) (limit : Limit) : Option Double → Bounds
  | some bound => bounds.set limit bound
  | none => bounds

def assemble (given : Bounds) : Bounds :=
  Limit.all.foldl (fun bounds limit => bounds.setIfGiven limit (given.get limit)) {}

def configured (bounds : Bounds) : List (Limit × Double) :=
  Limit.all.filterMap fun limit => (bounds.get limit).map (limit, ·)

def check (bounds : Bounds) (n : Double) (found : Option Json) : Except Rejection Unit :=
  match bounds.configured.find? fun (limit, bound) => limit.violatedBy bound n with
  | some (limit, bound) => .error (.of (.outOfBounds limit bound) found)
  | none => .ok ()

def checkFinite (bounds : Bounds) : Except Rejection Unit :=
  match bounds.configured.find? fun (_, bound) => !bound.isFinite with
  | some (limit, bound) => .error (.of (.notFiniteBound limit bound) none)
  | none => .ok ()

@[simp]
theorem get_set_self (bounds : Bounds) (limit : Limit) (bound : Double) :
    (bounds.set limit bound).get limit = some bound := by
  cases limit <;> rfl

theorem get_set_of_ne (bounds : Bounds) {limit other : Limit} (h : limit ≠ other)
    (bound : Double) : (bounds.set limit bound).get other = bounds.get other := by
  cases limit <;> cases other <;> simp_all [get, set]

@[simp]
theorem assemble_eq (given : Bounds) : given.assemble = given := by
  obtain ⟨gt, gte, lt, lte⟩ := given
  cases gt <;> cases gte <;> cases lt <;> cases lte <;> rfl

theorem ext_get {bounds other : Bounds} (h : ∀ limit, bounds.get limit = other.get limit) :
    bounds = other := by
  obtain ⟨gt, gte, lt, lte⟩ := bounds
  obtain ⟨gt', gte', lt', lte'⟩ := other
  rw [mk.injEq]
  exact ⟨h .gt, h .gte, h .lt, h .lte⟩

theorem mem_configured (bounds : Bounds) (limit : Limit) (bound : Double) :
    (limit, bound) ∈ bounds.configured ↔ bounds.get limit = some bound := by
  simp only [configured, List.mem_filterMap, Option.map_eq_some_iff, Prod.mk.injEq]
  constructor
  . rintro ⟨l, _, b, h, rfl, rfl⟩
    exact h
  . intro h
    exact ⟨limit, limit.mem_all, bound, h, rfl, rfl⟩

theorem checkFinite_eq_ok_iff (bounds : Bounds) :
    bounds.checkFinite = .ok () ↔
      ∀ limit bound, bounds.get limit = some bound → bound.isFinite = true := by
  simp only [← mem_configured]
  unfold checkFinite
  split
  . rename_i limit bound heq
    have hmem := List.mem_of_find?_eq_some heq
    simp only [reduceCtorEq, false_iff]
    intro h
    simpa [h limit bound hmem] using List.find?_some heq
  . rename_i heq
    simpa [List.find?_eq_none] using heq

end Bounds

end Intake
