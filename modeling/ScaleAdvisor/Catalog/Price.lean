import ScaleAdvisor.Catalog.Pool
import ScaleAdvisor.Decimal.Plain
import ScaleAdvisor.Json.Reader
import ScaleAdvisor.Json.Record
import ScaleAdvisor.Quantity

/-!
Hourly prices by region and instance type, and the weights that turn resources into comparable
units.
-/

namespace ScaleAdvisor

/-- Why a price or a score is not to be had. -/
inductive ScoreError where
  | priceNotFound (region instanceType : String)
  | invalidPrice (instanceType : String) (price : Float)
  | invalidPricing (reason : String)
  | computeNodeScore (name reason : String)
  | selectNodeScore (reason : String)
  | noWinningNodeScore

def ScoreError.message : ScoreError → String
  | .priceNotFound region instanceType =>
    "no hourly price for instance type " ++ instanceType ++ " in region " ++ region
  | .invalidPrice instanceType price =>
    "invalid hourly price " ++ Decimal.plain price ++ " for instance type " ++ instanceType
  | .invalidPricing reason => "invalid pricing data: " ++ reason
  | .computeNodeScore name reason => "failed to compute node score for " ++ name ++ ": " ++ reason
  | .selectNodeScore reason => "failed to select node score: " ++ reason
  | .noWinningNodeScore => "no winning node score"

structure PriceRow where
  region : String
  instanceType : String
  hourlyPrice : Float

/-- Prices by region and instance type. -/
abbrev PriceTable (F : Type) := SortedMap (String × String) F

namespace PriceTable

/-- Collect rows; a later row replaces an earlier one. The first price that is not positive and
finite is refused. -/
def ofRows (rows : List PriceRow) : Except ScoreError (PriceTable Float) :=
  rows.foldlM (fun table row =>
    if row.hourlyPrice.isFinite && 0 < row.hourlyPrice then
      .ok (table.insert (row.region, row.instanceType) row.hourlyPrice)
    else .error (.invalidPrice row.instanceType row.hourlyPrice)) ∅

/-- A row, its price read by a reader of its own. -/
def row? (price? : Json.Reader Float) : Json.Reader PriceRow := Json.record? fun m => do
  let region ← m.field "region" Json.text?
  let instanceType ← m.field "instance_type" Json.text?
  let hourlyPrice ← m.field "hourly_price" price?
  return { region, instanceType, hourlyPrice }

/-- A table from JSON text: a list of rows. -/
def parse (text : String) : Except ScoreError (PriceTable Float) :=
  match (Json.read? text).bind (Json.list? (row? Json.float?)) with
  | some rows => ofRows rows
  | none => .error (.invalidPricing "not a list of price rows")

def price {F : Type} (t : PriceTable F) (region instanceType : String) : Except ScoreError F :=
  match t.get? (region, instanceType) with
  | some p => .ok p
  | none => .error (.priceNotFound region instanceType)

end PriceTable

/-- The weight of one unit of each resource. -/
abbrev Weights (F : Type) := SortedMap String F

/-- Weights for all instance types, and for some of them their own. -/
structure WeightTable (F : Type) where
  fallback : Weights F
  instanceTypes : SortedMap String (Weights F) := ∅

namespace WeightTable

def standardWeights : Weights Float :=
  SortedMap.ofList [(Resources.cpu, 1.0), (Resources.memory, 0.125), ("nvidia.com/gpu", 20.0)]

def standard : WeightTable Float := { fallback := standardWeights }

instance : Inhabited (WeightTable Float) := ⟨standard⟩

/-- The weights for an instance type. -/
def weights {F : Type} (t : WeightTable F) (instanceType : String) : Weights F :=
  t.instanceTypes.getD instanceType t.fallback

def weights? : Json.Reader (Weights Float) := Json.map? Json.float?

def read? : Json.Reader (WeightTable Float) := Json.record? fun m => do
  let fallback ← m.fieldOr "default" weights? standardWeights
  let instanceTypes ← m.fieldOr "instance_types" (Json.map? weights?) ∅
  return { fallback, instanceTypes }

def toJson (t : WeightTable Float) : Json :=
  .object [("default", Json.ofMap Json.ofFloat t.fallback),
    ("instance_types", Json.ofMap (Json.ofMap Json.ofFloat) t.instanceTypes)]

end WeightTable

section Units

open Quantity

variable {F : Type} [Quantity F]

/-- An amount in whole cores, gibibytes or pieces. -/
def wholeUnits (name : String) (amount : Int) : F :=
  if name = Resources.cpu then ofInt amount / ofInt 1000
  else if name = Resources.memory then ofInt amount / ofInt Resources.gib
  else ofInt amount

/-- The weighted sum of resources; a resource without a weight counts for nothing. -/
def normalizedUnits (r : Amounts) (weights : Weights F) : F :=
  Quantity.sum (r.entries.filterMap fun e =>
    (weights.get? e.1).map (· * wholeUnits e.1 e.2))

end Units

end ScaleAdvisor
