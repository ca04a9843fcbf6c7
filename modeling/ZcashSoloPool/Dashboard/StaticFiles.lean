import ZcashSoloPool.Collections.OrderedMap
import ZcashSoloPool.JavaScript.Value
import ZcashSoloPool.Web.PosixPath
import Mathlib.Data.Rat.Defs

/-!
# Static files of the dashboard

The web server normalises the path of a request, strips its leading steps to
the parent and joins it with the web root.  What is left has no step to the
parent, so that only the web root and what lies in it is looked at.
-/

namespace ZcashSoloPool.Dashboard

open ZcashSoloPool.Collections
open ZcashSoloPool.JavaScript
open ZcashSoloPool.Web.PosixPath

/-! ## The server -/

/-- What `stat` tells of a path. -/
structure FileStat where
  isDirectory : Bool
  mtimeMs : ℚ

/-- The file system: `stat` and `readFile`, with `none` where they throw. -/
structure FileAccess where
  stat : Text → Option FileStat
  readFile : Text → Option (List UInt8)

/-- A file in `_fileCache`. -/
structure CachedFile where
  data : List UInt8
  mtimeMs : ℚ

/-- The fields of `WebGuiServer` that a request for a file reads and writes.
The constructor resolves the web root to a directory named `webgui`. -/
structure WebGuiServer where
  webRoot : Directory
  fileCache : OrderedMap Text CachedFile

/-- What a request is answered with. -/
inductive WebReply where
  | methodNotAllowed
  | config
  | forbidden
  | notFound
  | file (path : Text) (content : List UInt8)
  | failed

/-- A handled request: the reply, the paths given to `stat` and to `readFile`,
and the server afterwards. -/
structure Handled where
  reply : WebReply
  statted : Option Text
  readPath : Option Text
  server : WebGuiServer

/-- `replace(/^(\.\.(\/|\\|$))+/, "")`. -/
def stripParents : Text → Text
  | '.' :: '.' :: '/' :: rest => stripParents rest
  | '.' :: '.' :: '\\' :: rest => stripParents rest
  | ['.', '.'] => []
  | text => text

namespace WebGuiServer

/-- The path of the URL without its query. -/
def urlPath (url : Text) : Text :=
  (if url.isEmpty then ['/'] else url).takeWhile (· ≠ '?')

/-- The path of the file for the path of a URL. -/
def filePath (server : WebGuiServer) (urlPath : Text) : Text :=
  let path := if urlPath = ['/'] then "/index.html".toList else urlPath
  let safePath := stripParents (normalize path)
  join [server.webRoot.text, safePath]

/-- The part of `handleRequest` behind `stat`. -/
def serveFile (server : WebGuiServer) (access : FileAccess) (filePath : Text)
    (stat : FileStat) : Handled :=
  let cached := (server.fileCache.get? filePath).filter fun entry => entry.mtimeMs = stat.mtimeMs
  match cached with
  | some entry => ⟨.file filePath entry.data, filePath, none, server⟩
  | none =>
      match access.readFile filePath with
      | none => ⟨.failed, filePath, filePath, server⟩
      | some content =>
          ⟨.file filePath content, filePath, filePath,
            { server with fileCache := server.fileCache.set filePath ⟨content, stat.mtimeMs⟩ }⟩

/-- `handleRequest`. -/
def handleRequest (server : WebGuiServer) (access : FileAccess) (method url : Text) : Handled :=
  if method ≠ "GET".toList then ⟨.methodNotAllowed, none, none, server⟩
  else if urlPath url = "/config.json".toList then ⟨.config, none, none, server⟩
  else
    let filePath := server.filePath (urlPath url)
    if !server.webRoot.text.isPrefixOf filePath then ⟨.forbidden, none, none, server⟩
    else
      match access.stat filePath with
      | none => ⟨.notFound, filePath, none, server⟩
      | some stat =>
          if stat.isDirectory then ⟨.notFound, filePath, none, server⟩
          else server.serveFile access filePath stat

end WebGuiServer

/-! ## Leading steps to the parent -/

/-- Behind a first component that is no step to the parent there is none. -/
theorem parent_not_mem_of_cons {first : Text} {others : List Text}
    (ordered : ParentsFirst (first :: others)) (notParent : first ≠ parent) : parent ∉ others :=
  fun member => notParent (List.rel_of_pairwise_cons ordered member rfl)

/-- A text whose steps to the parent come first has none left when the leading
ones are stripped, whether they end in a slash or in a backslash. -/
theorem parent_not_mem_stripParents {text : Text} (ordered : ParentsFirst (text.splitOn '/')) :
    parent ∉ (stripParents text).splitOn '/' := by
  induction text using stripParents.induct with
  | case1 rest ih =>
      have components : ('.' :: '.' :: '/' :: rest).splitOn '/' = parent :: rest.splitOn '/' :=
        List.splitOn_append_cons_self_of_not_mem (by decide : '/' ∉ parent) rest
      rw [components] at ordered
      exact ih ordered.tail
  | case2 rest ih =>
      obtain ⟨first, others, split⟩ := List.exists_cons_of_ne_nil (List.splitOn_ne_nil '/' rest)
      have components : ('.' :: '.' :: '\\' :: rest).splitOn '/' =
          ('.' :: '.' :: '\\' :: first) :: others := by
        simp [List.splitOn_cons_eq_if_modifyHead, split]
      rw [components] at ordered
      have noParent : parent ∉ others := parent_not_mem_of_cons ordered (by simp [parent])
      apply ih
      rw [split]
      exact List.pairwise_cons.mpr ⟨fun later member isParent =>
        absurd (isParent ▸ member) noParent, parentsFirst_of_not_mem noParent⟩
  | case3 => decide
  | case4 text noSlash noBackslash notParent =>
      have unchanged : stripParents text = text := by
        rw [stripParents.eq_def]
        split
        · next rest => exact absurd rfl (noSlash rest)
        · next rest => exact absurd rfl (noBackslash rest)
        · exact absurd rfl notParent
        · rfl
      obtain ⟨first, others, split⟩ := List.exists_cons_of_ne_nil (List.splitOn_ne_nil '/' text)
      have whole : ['/'].intercalate (text.splitOn '/') = text := List.intercalate_splitOn '/'
      rw [split] at whole ordered
      have solid : first ≠ parent := by
        rintro rfl
        cases others with
        | nil => exact notParent (by simpa [parent] using whole.symm)
        | cons second later =>
            exact noSlash (['/'].intercalate (second :: later)) (by
              simpa [parent, List.intercalate_cons_of_ne_nil (List.cons_ne_nil second later)]
                using whole.symm)
      rw [unchanged, split, List.mem_cons, not_or]
      exact ⟨solid.symm, parent_not_mem_of_cons ordered solid⟩

namespace WebGuiServer

/-! ## Below the web root -/

/-- The path of a file is that of the web root or of something in it. -/
theorem within_filePath (server : WebGuiServer) (urlPath : Text) :
    server.webRoot.Within (server.filePath urlPath) :=
  server.webRoot.within_join (parent_not_mem_stripParents (parentsFirst_normalize _))

/-- The check for the prefix refuses no path. -/
theorem isPrefixOf_filePath (server : WebGuiServer) (urlPath : Text) :
    server.webRoot.text.isPrefixOf (server.filePath urlPath) = true := by
  rw [List.isPrefixOf_iff_prefix]
  rcases server.within_filePath urlPath with same | ⟨rest, below, -⟩
  · exact ⟨[], by rw [same, List.append_nil]⟩
  · rw [below]
    exact List.prefix_append _ _

/-- A file that is served is looked at and read under its own path. -/
theorem serveFile_paths (server : WebGuiServer) (access : FileAccess) (filePath : Text)
    (stat : FileStat) :
    (server.serveFile access filePath stat).statted = some filePath ∧
      ∀ path, (server.serveFile access filePath stat).readPath = some path → path = filePath := by
  unfold serveFile
  dsimp only
  split
  · simp
  · split <;> simp [eq_comm]

/-- Whatever the URL, only the web root and what lies in it is looked at and
read. -/
theorem within_handleRequest (server : WebGuiServer) (access : FileAccess) (method url : Text) :
    (∀ path, (server.handleRequest access method url).statted = some path →
      server.webRoot.Within path) ∧
    ∀ path, (server.handleRequest access method url).readPath = some path →
      server.webRoot.Within path := by
  have within := server.within_filePath (urlPath url)
  unfold handleRequest
  dsimp only
  split
  · simp
  · split
    · simp
    · split
      · simp
      · split
        · simp [within]
        · next stat _ =>
            split
            · simp [within]
            · have served := server.serveFile_paths access (server.filePath (urlPath url)) stat
              constructor
              · intro path looked
                rw [served.1, Option.some.injEq] at looked
                exact looked ▸ within
              · intro path isRead
                exact (served.2 path isRead) ▸ within

/-- A server with the web root `/srv/webgui` and an empty cache. -/
def srvExample : WebGuiServer where
  webRoot := ⟨["srv".toList, "webgui".toList], by decide, by decide, by decide, by decide⟩
  fileCache := .empty

/-- A path that tries to leave the web root with both separators. -/
theorem within_handleRequest_passwd :
    srvExample.webRoot.Within "/srv/webgui/etc/passwd".toList :=
  (within_handleRequest srvExample ⟨fun _ => some ⟨false, 0⟩, fun _ => some []⟩ "GET".toList
    "..\\../etc/passwd?key".toList).1 _ (by decide)

end WebGuiServer

end ZcashSoloPool.Dashboard
