import DocStore.Client.Basic
import DocStore.Store.Execute

/-!
# Connections to a store

A client may have a store of its own for a server: each connection is one session of the store.
-/

namespace DocStore.Store

/-- The connection that a session of a store is; `version` is that of the store. -/
def connection (version : Version) (session : SessionId) : Connection Store where
  send request store := store.execute session request
  version := version

end DocStore.Store
