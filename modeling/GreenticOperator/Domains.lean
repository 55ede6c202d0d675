/-!
# Provider packs

`src/domains/mod.rs`. What the operator knows of a discovered pack.
-/

namespace Domains

inductive Domain
  | Messaging
  | Events
  | Secrets
  | OAuth
deriving DecidableEq, Repr

def domainName : Domain → String
  | .Messaging => "messaging"
  | .Events => "events"
  | .Secrets => "secrets"
  | .OAuth => "oauth"

structure ProviderPack where
  packId : String
  path : String
  entryFlows : List String
deriving DecidableEq, Repr

end Domains
