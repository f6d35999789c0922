import RecordAlgebra.Value.Basic

/-!
# Configuration of executions

Settings are read and written by name, as values. A value that a setting does
not take leaves the configuration as it was.
-/

namespace RecordAlgebra

structure ExecutionConfig where
  /-- Whether subtrees are offered to the source. -/
  enableOptimizer : Bool := true
  /-- Whether results are compared with those of plain evaluation. -/
  verifyOptimized : Bool := false
  /-- The depth in the tree below which nothing is offered. -/
  maxNegotiationDepth : Nat := 64
  deriving DecidableEq, Repr

inductive Setting where
  | enableOptimizer
  | maxNegotiationDepth
  | verifyOptimized
  deriving DecidableEq, Repr

namespace Setting

def all : List Setting := [.enableOptimizer, .maxNegotiationDepth, .verifyOptimized]

def name : Setting → String
  | .enableOptimizer => "enable_optimizer"
  | .maxNegotiationDepth => "max_negotiation_depth"
  | .verifyOptimized => "verify_optimized"

def description : Setting → String
  | .enableOptimizer => "Controls if subtrees are offered for native execution"
  | .maxNegotiationDepth => "Deepest subtree offered to a data source"
  | .verifyOptimized => "Compare optimized results against naive evaluation of the full tree"

def depthLimit : Nat := 4096

def read (setting : Setting) (config : ExecutionConfig) : Value :=
  match setting with
  | .enableOptimizer => .bool config.enableOptimizer
  | .maxNegotiationDepth => .int (Int64.ofNat config.maxNegotiationDepth)
  | .verifyOptimized => .bool config.verifyOptimized

def write (view : ItemRef → String) (setting : Setting) (v : Value) (config : ExecutionConfig) :
    Except Error ExecutionConfig := do
  match setting with
  | .enableOptimizer => .ok { config with enableOptimizer := ← v.toBool view }
  | .verifyOptimized => .ok { config with verifyOptimized := ← v.toBool view }
  | .maxNegotiationDepth =>
      let depth := (← v.toInt view).toInt
      if depth < 0 || (depthLimit : Int) < depth then
        .error (.ofCause (.depthOutOfRange depthLimit))
      else .ok { config with maxNegotiationDepth := depth.toNat }

def ofName (name : String) : Except Error Setting :=
  match all.find? fun setting => setting.name == name with
  | some setting => .ok setting
  | none => .error (.ofCause (.unknownSetting name))

theorem mem_all (setting : Setting) : setting ∈ all := by
  cases setting <;> simp [all]

theorem ofName_name (setting : Setting) : ofName setting.name = .ok setting := by
  cases setting <;> rfl

end Setting

namespace ExecutionConfig

variable (view : ItemRef → String)

def set (config : ExecutionConfig) (name : String) (v : Value) :
    Except Error ExecutionConfig := do
  (← Setting.ofName name).write view v config

def get (config : ExecutionConfig) (name : String) : Except Error Value := do
  .ok ((← Setting.ofName name).read config)

/-- The configuration with one setting as it is by default. -/
def reset (config : ExecutionConfig) (name : String) : Except Error ExecutionConfig := do
  let setting ← Setting.ofName name
  setting.write view (setting.read {}) config

def ofRow (row : Row) : Except Error ExecutionConfig :=
  row.foldlM (fun config (name, v) => config.set view name v) {}

end ExecutionConfig

end RecordAlgebra
