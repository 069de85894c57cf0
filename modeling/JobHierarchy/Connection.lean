import JobHierarchy.Builds
import JobHierarchy.Lifecycle
/-!
# One connection

A server, the pace of polling it, and how long to wait when nothing else is said.
-/

namespace JobHierarchy

structure Connection where
  server : JobServer
  poller : Poller
  /-- In milliseconds. -/
  waitTimeout : Nat

namespace Connection

/-- A connection with a wait of one minute. -/
def ofServer (server : JobServer) (poller : Poller) : Connection := ⟨server, poller, 60000⟩

/-- The connection that settings describe, if they are sound. -/
def ofSettings (settings : Settings) (templates : TemplateSource) : Except Error Connection := do
  settings.validate
  return {
    server := {
      baseUrl := settings.normalizedBaseUrl
      templates
      credentials := settings.credentials }
    poller := ⟨settings.pollInterval⟩
    waitTimeout := settings.waitTimeout }

end Connection

end JobHierarchy
