import CncnetServer.Net

/-!
`config.rs`: the checks and clamps between the command line and the fields the
tunnels read. Fields that only the announcement and the listeners use are left
out.
-/

namespace CncnetServer

structure Args where
  port : UInt16
  portv2 : UInt16
  maxclients : Nat
  maintpw : String
  iplimit : Nat
  iplimitv2 : Nat

structure ServerConfig where
  tunnelPort : UInt16
  tunnelV2Port : UInt16
  maxClients : Nat
  maintenancePassword : String
  ipLimit : Nat
  ipLimitV2 : Nat

def portError (port : UInt16) : String :=
  "Port " ++ toString port.toNat ++ " requires root privileges. Use a port > 1024 or 0 for auto"

def ServerConfig.fromArgs (args : Args) : Except String ServerConfig :=
  if args.port ≤ 1024 ∧ args.port ≠ 0 then .error (portError args.port)
  else if args.portv2 ≤ 1024 ∧ args.portv2 ≠ 0 then .error (portError args.portv2)
  else if args.maxclients < 2 then .error "Max clients must be at least 2"
  else if args.maxclients > 10000 then .error "Max clients cannot exceed 10000 for safety"
  else .ok {
    tunnelPort := args.port
    tunnelV2Port := args.portv2
    maxClients := args.maxclients
    maintenancePassword := args.maintpw
    ipLimit := min (max args.iplimit 1) 100
    ipLimitV2 := min (max args.iplimitv2 1) 100 }

end CncnetServer
