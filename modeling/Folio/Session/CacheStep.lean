import Folio.Session.Basic

/-!
# Commands to the caches and the pool

A paragraph is asked for by document, index and language.  The tag of the language is read
before anything else is looked at.
-/

namespace Folio.Session

/-- Go on with the key of a request, if its language tag is well formed. -/
def withKey
    (session : Session)
    (request : Request)
    (proceed : ParagraphKey → Session × Reply) :
    Session × Reply :=
  match request.tag with
  | none => proceed ⟨request.document, request.index, .undetermined⟩
  | some tag =>
      match Language.parse tag with
      | .error error => (session, .badTag error)
      | .ok language => proceed ⟨request.document, request.index, language⟩

/-- Carry out a command to the caches or the pool. -/
def runCache (session : Session) : CacheCommand → Session × Reply
  | .cursor slot request =>
      session.withKey request fun key =>
        let (found, workspace) :=
          session.workspace.cursor key.document key.language key.index
        keepFound { session with workspace } slot found
  | .get request =>
      session.withKey request fun key =>
        (session,
          session.foundReply? (session.workspace.cache.get? session.workspace.isAlive key))
  | .isEmpty => (session, .flag session.workspace.cache.isEmpty)
  | .cleanup =>
      let workspace := session.workspace.cleanupCache
      ({ session with workspace },
        .count (session.workspace.cache.size - workspace.cache.size))
  | .clear => ({ session with workspace := session.workspace.clearCache }, .nothing)
  | .shrinkPool => ({ session with workspace := session.workspace.shrinkPool }, .nothing)
  | .config => (session, .config session.workspace.config)
  | .ownPut slot request =>
      session.withKey request fun key =>
        session.withSlot slot fun id =>
          let ownCache := session.ownCache.put key id
          ({ session with ownCache }, .count ownCache.size)
  | .ownGet request =>
      session.withKey request fun key =>
        (session, session.foundReply? (session.ownCache.get? session.workspace.isAlive key))
  | .ownCleanup =>
      let ownCache := session.ownCache.cleanup session.workspace.isAlive
      ({ session with ownCache },
        .cleaned (session.ownCache.size - ownCache.size) ownCache.size ownCache.isEmpty)
  | .ownClear =>
      let ownCache := session.ownCache.clear
      ({ session with ownCache }, .cleared ownCache.size ownCache.isEmpty)

end Folio.Session
