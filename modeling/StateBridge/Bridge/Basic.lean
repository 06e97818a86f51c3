import StateBridge.Bridge.Stats

set_option autoImplicit false

namespace StateBridge

structure BridgeConfig where
  traceUpcalls : Bool := false
  traceModules : Bool := false
  profile : Bool := false
  deriving DecidableEq, Repr, Inhabited

namespace BridgeConfig

def traceUpcallsVariable : String := "MOLT_CAPI_TRACE_UPCALLS"
def traceModulesVariable : String := "MOLT_CAPI_TRACE_MODULES"
def profileVariable : String := "MOLT_PROFILE"

-- Tracing takes exactly `1`, profiling any value but `0` and the empty one.
def ofEnvironment (lookup : String → Option String) (profileAlways : Bool := false) :
    BridgeConfig where
  traceUpcalls := lookup traceUpcallsVariable == some "1"
  traceModules := lookup traceModulesVariable == some "1"
  profile := profileAlways || match lookup profileVariable with
    | none => false
    | some value => !value.isEmpty && value != "0"

def describe (config : BridgeConfig) : String :=
  "BridgeConfig \x7b trace_upcalls: " ++ toString config.traceUpcalls ++
    ", trace_modules: " ++ toString config.traceModules ++
    ", profile: " ++ toString config.profile ++ " \x7d"

end BridgeConfig

structure Bridge where
  runtime : RuntimeId
  config : BridgeConfig
  deriving DecidableEq, Repr, Inhabited

def Bridge.describe (bridge : Bridge) (stats : UpcallStats) : String :=
  "Bridge \x7b config: " ++ bridge.config.describe ++ ", upcalls: " ++
    toString stats.total.toNat ++ ", .. \x7d"

end StateBridge
