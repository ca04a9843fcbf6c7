import ZcashSoloPool.Dashboard.StaticFiles
import ZcashSoloPool.Transition.Run
import Mathlib.Data.List.Induction
import Mathlib.Data.List.Pairwise
import Mathlib.Data.Rat.Defs
import Mathlib.Tactic.Linarith

/-!
# The cache of the web server

A request for a file waits twice: for `stat` and, if the cache has no entry of
the same modification time, for `readFile`.  Other requests run in between, and
the files change.  Where each change of a file gives it a later modification
time, what is served is a content that the file had while the request was
handled, whatever the interleaving.
-/

namespace ZcashSoloPool.Dashboard

open ZcashSoloPool.Collections
open ZcashSoloPool.JavaScript
open ZcashSoloPool.Transition

/-! ## Requests that wait -/

/-- A file or a directory at some moment. -/
structure FileVersion where
  isDirectory : Bool
  mtimeMs : ℚ
  content : List UInt8

/-- Where a request is in `handleRequest`. -/
inductive Stage where
  /-- It waits for `stat`. -/
  | statting
  /-- The file system has answered, and the code behind has not run. -/
  | statted (stat : Option FileStat)
  /-- It waits for `readFile`, with the time that `stat` told. -/
  | reading (mtimeMs : ℚ)
  /-- The file has been read, and the code behind has not run. -/
  | read (mtimeMs : ℚ) (content : Option (List UInt8))
  | answered (reply : WebReply)

/-- A request: the path of its file, where it is, and the contents that the file
had until it was answered. -/
structure Visit where
  path : Text
  stage : Stage
  held : List (List UInt8)

/-- The files, and all versions that each path ever had with the newest one
first. -/
structure FileTree where
  disk : Text → Option FileVersion
  versions : Text → List FileVersion

/-- The server, the files and the requests in the order of their arrival. -/
structure Site where
  server : WebGuiServer
  tree : FileTree
  visits : List Visit

/-- What happens: a request arrives, the file system carries out `stat` or
`readFile` for one, the code behind that runs, and files change. -/
inductive SiteEvent where
  | arrives (method url : Text)
  | stats (place : Nat)
  | reads (place : Nat)
  | continues (place : Nat)
  | writes (path : Text) (version : FileVersion)
  | deletes (path : Text)

/-- What `stat` tells. -/
def FileVersion.stat (version : FileVersion) : FileStat :=
  ⟨version.isDirectory, version.mtimeMs⟩

/-- What `readFile` reads of a version, which is nothing of a directory. -/
def FileVersion.read (version : FileVersion) : Option (List UInt8) :=
  if version.isDirectory then none else some version.content

/-- The request is done. -/
def Stage.isAnswered : Stage → Bool
  | answered _ => true
  | _ => false

namespace Visit

/-- A request that is not done sees that its file changes. -/
def notice (path : Text) (version : FileVersion) (visit : Visit) : Visit :=
  if visit.path = path ∧ visit.stage.isAnswered = false then
    { visit with held := version.read.toList ++ visit.held }
  else visit

end Visit

namespace WebGuiServer

/-- `handleRequest` up to `stat`. -/
def arrive (server : WebGuiServer) (method url : Text) : Stage :=
  if method ≠ "GET".toList then .answered .methodNotAllowed
  else if urlPath url = "/config.json".toList then .answered .config
  else if !server.webRoot.text.isPrefixOf (server.filePath (urlPath url)) then .answered .forbidden
  else .statting

/-- `handleRequest` between `stat` and `readFile`. -/
def afterStat (server : WebGuiServer) (path : Text) : Option FileStat → Stage
  | none => .answered .notFound
  | some stat =>
      if stat.isDirectory then .answered .notFound
      else
        match (server.fileCache.get? path).filter fun entry => entry.mtimeMs = stat.mtimeMs with
        | some entry => .answered (.file path entry.data)
        | none => .reading stat.mtimeMs

/-- `handleRequest` behind `readFile`. -/
def afterRead (server : WebGuiServer) (path : Text) (mtimeMs : ℚ) :
    Option (List UInt8) → Stage × WebGuiServer
  | none => (.answered .failed, server)
  | some content => (.answered (.file path content),
      { server with fileCache := server.fileCache.set path ⟨content, mtimeMs⟩ })

end WebGuiServer

namespace FileTree

/-- `stat`. -/
def stat (tree : FileTree) (path : Text) : Option FileStat :=
  (tree.disk path).map FileVersion.stat

/-- `readFile`. -/
def readFile (tree : FileTree) (path : Text) : Option (List UInt8) :=
  (tree.disk path).bind FileVersion.read

/-- A path gets a new version. -/
def write (tree : FileTree) (path : Text) (version : FileVersion) : FileTree where
  disk := Function.update tree.disk path (some version)
  versions := Function.update tree.versions path (version :: tree.versions path)

/-- A path is removed. -/
def delete (tree : FileTree) (path : Text) : FileTree :=
  { tree with disk := Function.update tree.disk path none }

/-- The files at the beginning. -/
def initial (disk : Text → Option FileVersion) : FileTree :=
  ⟨disk, fun path => (disk path).toList⟩

end FileTree

/-- A request that arrives sees its file, unless it is answered at once. -/
def Visit.opened (tree : FileTree) (path : Text) (stage : Stage) : Visit :=
  ⟨path, stage, if stage.isAnswered then [] else (tree.readFile path).toList⟩

namespace Site

/-- A server with an empty cache and no requests. -/
def start (webRoot : Web.PosixPath.Directory) (disk : Text → Option FileVersion) : Site :=
  ⟨⟨webRoot, .empty⟩, .initial disk, []⟩

/-- A request goes on. -/
def proceed (site : Site) (place : Nat) (visit : Visit) (stage : Stage) : Site :=
  { site with visits := site.visits.set place { visit with stage } }

/-- One event. -/
def next : Next Site SiteEvent
  | site, .arrives method url => some { site with visits := site.visits ++
      [Visit.opened site.tree (site.server.filePath (WebGuiServer.urlPath url))
        (site.server.arrive method url)] }
  | site, .stats place =>
      match site.visits[place]? with
      | some ⟨path, .statting, held⟩ =>
          some (site.proceed place ⟨path, .statting, held⟩ (.statted (site.tree.stat path)))
      | _ => none
  | site, .reads place =>
      match site.visits[place]? with
      | some ⟨path, .reading mtimeMs, held⟩ =>
          some (site.proceed place ⟨path, .reading mtimeMs, held⟩
            (.read mtimeMs (site.tree.readFile path)))
      | _ => none
  | site, .continues place =>
      match site.visits[place]? with
      | some ⟨path, .statted stat, held⟩ =>
          some (site.proceed place ⟨path, .statted stat, held⟩ (site.server.afterStat path stat))
      | some ⟨path, .read mtimeMs content, held⟩ =>
          let after := site.server.afterRead path mtimeMs content
          some (proceed { site with server := after.2 } place ⟨path, .read mtimeMs content, held⟩
            after.1)
      | _ => none
  | site, .writes path version =>
      some { site with
        tree := site.tree.write path version
        visits := site.visits.map (Visit.notice path version) }
  | site, .deletes path => some { site with tree := site.tree.delete path }

/-- A change gives a file a later time than it ever had. -/
def Advances (site : Site) : SiteEvent → Prop
  | .writes path version => ∀ older ∈ site.tree.versions path, older.mtimeMs < version.mtimeMs
  | _ => True

instance (site : Site) : ∀ event, Decidable (site.Advances event)
  | .writes path version => inferInstanceAs
      (Decidable (∀ older ∈ site.tree.versions path, older.mtimeMs < version.mtimeMs))
  | .arrives .. | .stats _ | .reads _ | .continues _ | .deletes _ => isTrue trivial

end Site

/-! ## What a request knows -/

/-- The versions of each path are in the order of their times, and a file that is
there is the newest of them. -/
structure FileTree.Ordered (tree : FileTree) : Prop where
  decreasing : ∀ path, (tree.versions path).Pairwise fun newer older => older.mtimeMs < newer.mtimeMs
  newest : ∀ path version, tree.disk path = some version → version ∈ tree.versions path ∧
    ∀ other ∈ tree.versions path, other.mtimeMs ≤ version.mtimeMs

namespace Visit

/-- The file as it is now is among what the request has seen. -/
def Current (tree : FileTree) (visit : Visit) : Prop :=
  ∀ content, tree.readFile visit.path = some content → content ∈ visit.held

/-- A version of the file had this time, and all files from it on are among what
the request has seen. -/
structure Since (tree : FileTree) (visit : Visit) (mtimeMs : ℚ) : Prop where
  stamped : ∃ version ∈ tree.versions visit.path, version.mtimeMs = mtimeMs
  seen : ∀ version ∈ tree.versions visit.path, mtimeMs ≤ version.mtimeMs →
    ∀ content, version.read = some content → content ∈ visit.held

/-- Some version of a path from this time on had the content. -/
def HasSince (tree : FileTree) (path : Text) (mtimeMs : ℚ) (content : List UInt8) : Prop :=
  ∃ version ∈ tree.versions path, mtimeMs ≤ version.mtimeMs ∧ version.read = some content

/-- What a request knows, by where it is. -/
def Tracked (tree : FileTree) (visit : Visit) : Prop :=
  match visit.stage with
  | .statting => visit.Current tree
  | .statted stat => visit.Current tree ∧
      ∀ told, stat = some told → told.isDirectory = false → visit.Since tree told.mtimeMs
  | .reading mtimeMs => visit.Current tree ∧ visit.Since tree mtimeMs
  | .read mtimeMs content => visit.Current tree ∧ visit.Since tree mtimeMs ∧
      ∀ data, content = some data →
        data ∈ visit.held ∧ HasSince tree visit.path mtimeMs data
  | .answered reply => ∀ path content, reply = .file path content →
      path = visit.path ∧ content ∈ visit.held

end Visit

/-- What holds between any two events. -/
structure Site.Invariant (site : Site) : Prop where
  ordered : site.tree.Ordered
  cached : ∀ path entry, site.server.fileCache.get? path = some entry →
    Visit.HasSince site.tree path entry.mtimeMs entry.data
  tracked : ∀ visit ∈ site.visits, visit.Tracked site.tree

/-! ## Files that change -/

namespace FileTree

section Operations

variable (tree : FileTree) {path other : Text} (version : FileVersion)

@[simp]
theorem disk_write_self : (tree.write path version).disk path = some version :=
  Function.update_self path _ _

@[simp]
theorem disk_write_of_ne (different : other ≠ path) :
    (tree.write path version).disk other = tree.disk other :=
  Function.update_of_ne different _ _

@[simp]
theorem versions_write_self :
    (tree.write path version).versions path = version :: tree.versions path :=
  Function.update_self path _ _

@[simp]
theorem versions_write_of_ne (different : other ≠ path) :
    (tree.write path version).versions other = tree.versions other :=
  Function.update_of_ne different _ _

@[simp]
theorem disk_delete_self : (tree.delete path).disk path = none :=
  Function.update_self path _ _

@[simp]
theorem disk_delete_of_ne (different : other ≠ path) :
    (tree.delete path).disk other = tree.disk other :=
  Function.update_of_ne different _ _

/-- A path keeps its versions and may get one more. -/
theorem mem_versions_write {found : FileVersion} :
    found ∈ (tree.write path version).versions other ↔
      (other = path ∧ found = version) ∨ found ∈ tree.versions other := by
  by_cases same : other = path
  · subst same
    simp
  · simp [same]

theorem readFile_write_self : (tree.write path version).readFile path = version.read := by
  simp [readFile]

theorem readFile_write_of_ne (different : other ≠ path) :
    (tree.write path version).readFile other = tree.readFile other := by
  simp [readFile, different]

theorem readFile_delete {content : List UInt8}
    (found : (tree.delete path).readFile other = some content) :
    tree.readFile other = some content := by
  by_cases same : other = path
  · subst same
    simp [readFile] at found
  · simpa [readFile, same] using found

end Operations

/-- Two versions of a path with one time are the same. -/
theorem Ordered.eq_of_mtimeMs {tree : FileTree} (ordered : tree.Ordered) {path : Text}
    {first second : FileVersion} (firstMember : first ∈ tree.versions path)
    (secondMember : second ∈ tree.versions path) (same : first.mtimeMs = second.mtimeMs) :
    first = second := by
  by_contra different
  have distinct : (tree.versions path).Pairwise fun newer older => newer.mtimeMs ≠ older.mtimeMs :=
    (ordered.decreasing path).imp fun less => ne_of_gt less
  have symmetric : Std.Symm fun newer older : FileVersion => newer.mtimeMs ≠ older.mtimeMs :=
    ⟨fun _ _ unequal => unequal.symm⟩
  exact distinct.forall firstMember secondMember different same

theorem Ordered.write {tree : FileTree} (ordered : tree.Ordered) {path : Text}
    {version : FileVersion} (later : ∀ older ∈ tree.versions path, older.mtimeMs < version.mtimeMs) :
    (tree.write path version).Ordered := by
  constructor
  · intro other
    by_cases same : other = path
    · subst same
      rw [versions_write_self]
      exact List.pairwise_cons.mpr ⟨later, ordered.decreasing other⟩
    · rw [versions_write_of_ne tree version same]
      exact ordered.decreasing other
  · intro other found there
    by_cases same : other = path
    · subst same
      rw [disk_write_self] at there
      cases there
      rw [versions_write_self]
      refine ⟨List.mem_cons_self, fun earlier member => ?_⟩
      rcases List.mem_cons.mp member with rfl | member
      · exact le_refl _
      · exact (later earlier member).le
    · rw [disk_write_of_ne tree version same] at there
      rw [versions_write_of_ne tree version same]
      exact ordered.newest other found there

theorem Ordered.delete {tree : FileTree} (ordered : tree.Ordered) (path : Text) :
    (tree.delete path).Ordered := by
  refine ⟨ordered.decreasing, fun other found there => ?_⟩
  by_cases same : other = path
  · rw [same, disk_delete_self] at there
    contradiction
  · rw [disk_delete_of_ne tree same] at there
    exact ordered.newest other found there

end FileTree

namespace Visit

theorem HasSince.write {tree : FileTree} {path : Text} {mtimeMs : ℚ} {content : List UInt8}
    (has : HasSince tree path mtimeMs content) (changed : Text) (version : FileVersion) :
    HasSince (tree.write changed version) path mtimeMs content := by
  obtain ⟨found, member, later, isRead⟩ := has
  exact ⟨found, (tree.mem_versions_write version).mpr (Or.inr member), later,
    isRead⟩

variable {tree : FileTree} {visit : Visit}

/-- A request that is not done keeps what it has seen and sees a new version of its
file. -/
theorem notice_spec (visit : Visit) (path : Text) (version : FileVersion)
    (waits : visit.stage.isAnswered = false) :
    (visit.notice path version).path = visit.path ∧
      (visit.notice path version).stage = visit.stage ∧
      (∀ content ∈ visit.held, content ∈ (visit.notice path version).held) ∧
      (visit.path = path → ∀ content, version.read = some content →
        content ∈ (visit.notice path version).held) := by
  unfold notice
  split
  · refine ⟨rfl, rfl, fun content member => List.mem_append_right _ member,
      fun _ content isRead => ?_⟩
    rw [isRead]
    exact List.mem_append_left _ List.mem_cons_self
  · next other =>
      exact ⟨rfl, rfl, fun _ member => member, fun same => absurd ⟨same, waits⟩ other⟩

theorem Current.notice (current : visit.Current tree) (path : Text) (version : FileVersion)
    (waits : visit.stage.isAnswered = false) :
    (visit.notice path version).Current (tree.write path version) := by
  obtain ⟨samePath, -, kept, new⟩ := visit.notice_spec path version waits
  intro content found
  rw [samePath] at found
  by_cases own : visit.path = path
  · rw [own, FileTree.readFile_write_self] at found
    exact new own content found
  · rw [FileTree.readFile_write_of_ne tree version own] at found
    exact kept content (current content found)

theorem Since.notice {mtimeMs : ℚ} (since : visit.Since tree mtimeMs) (path : Text)
    (version : FileVersion) (waits : visit.stage.isAnswered = false) :
    (visit.notice path version).Since (tree.write path version) mtimeMs := by
  obtain ⟨samePath, -, kept, new⟩ := visit.notice_spec path version waits
  constructor
  · obtain ⟨found, member, stamp⟩ := since.stamped
    rw [samePath]
    exact ⟨found, (tree.mem_versions_write version).mpr (Or.inr member), stamp⟩
  · intro found member later content isRead
    rw [samePath] at member
    rcases (tree.mem_versions_write version).mp member with ⟨own, rfl⟩ | member
    · exact new own content isRead
    · exact kept content (since.seen found member later content isRead)

/-- A change of a file keeps what every request knows. -/
theorem Tracked.notice (tracked : visit.Tracked tree) (path : Text) (version : FileVersion) :
    (visit.notice path version).Tracked (tree.write path version) := by
  cases stage : visit.stage with
  | answered reply =>
      have same : visit.notice path version = visit := by simp [Visit.notice, stage, Stage.isAnswered]
      rw [same]
      simpa only [Tracked, stage] using tracked
  | statting =>
      have waits : visit.stage.isAnswered = false := by rw [stage]; rfl
      have sameStage := (visit.notice_spec path version waits).2.1.trans stage
      simp only [Tracked, stage] at tracked
      simp only [Tracked, sameStage]
      exact tracked.notice path version waits
  | statted stat =>
      have waits : visit.stage.isAnswered = false := by rw [stage]; rfl
      have sameStage := (visit.notice_spec path version waits).2.1.trans stage
      simp only [Tracked, stage] at tracked
      simp only [Tracked, sameStage]
      exact ⟨tracked.1.notice path version waits, fun told isTold isFile =>
        (tracked.2 told isTold isFile).notice path version waits⟩
  | reading mtimeMs =>
      have waits : visit.stage.isAnswered = false := by rw [stage]; rfl
      have sameStage := (visit.notice_spec path version waits).2.1.trans stage
      simp only [Tracked, stage] at tracked
      simp only [Tracked, sameStage]
      exact ⟨tracked.1.notice path version waits, tracked.2.notice path version waits⟩
  | read mtimeMs content =>
      have waits : visit.stage.isAnswered = false := by rw [stage]; rfl
      obtain ⟨samePath, sameStage, kept, -⟩ := visit.notice_spec path version waits
      simp only [Tracked, stage] at tracked
      simp only [Tracked, sameStage.trans stage, samePath]
      refine ⟨tracked.1.notice path version waits, tracked.2.1.notice path version waits, ?_⟩
      intro data isData
      obtain ⟨member, has⟩ := tracked.2.2 data isData
      exact ⟨kept data member, has.write path version⟩

/-- A file that is removed leaves what every request knows. -/
theorem Tracked.delete (tracked : visit.Tracked tree) (path : Text) :
    visit.Tracked (tree.delete path) := by
  have current : visit.Current tree → visit.Current (tree.delete path) := fun current content found =>
    current content (tree.readFile_delete found)
  have since : ∀ {mtimeMs}, visit.Since tree mtimeMs → visit.Since (tree.delete path) mtimeMs :=
    fun since => ⟨since.stamped, since.seen⟩
  unfold Tracked at tracked ⊢
  split
  · next stage =>
      rw [stage] at tracked
      exact current tracked
  · next stat stage =>
      rw [stage] at tracked
      exact ⟨current tracked.1, fun told isTold isFile => since (tracked.2 told isTold isFile)⟩
  · next mtimeMs stage =>
      rw [stage] at tracked
      exact ⟨current tracked.1, since tracked.2⟩
  · next mtimeMs content stage =>
      rw [stage] at tracked
      exact ⟨current tracked.1, since tracked.2.1, tracked.2.2⟩
  · next reply stage =>
      rw [stage] at tracked
      exact tracked

end Visit

/-! ## Requests that go on -/

namespace FileTree

theorem ordered_initial (disk : Text → Option FileVersion) : (initial disk).Ordered := by
  constructor
  · intro path
    change (disk path).toList.Pairwise _
    cases disk path with
    | none => exact List.Pairwise.nil
    | some version => exact List.pairwise_singleton _ version
  · intro path version there
    have only : (initial disk).versions path = [version] := by
      change (disk path).toList = [version]
      rw [show disk path = some version from there, Option.toList_some]
    rw [only]
    refine ⟨List.mem_cons_self, fun other member => ?_⟩
    rw [List.mem_singleton.mp member]

/-- What is read is the newest version of the path. -/
theorem Ordered.exists_of_readFile {tree : FileTree} (ordered : tree.Ordered) {path : Text}
    {content : List UInt8} (found : tree.readFile path = some content) :
    ∃ version ∈ tree.versions path, version.read = some content ∧
      ∀ other ∈ tree.versions path, other.mtimeMs ≤ version.mtimeMs := by
  obtain ⟨version, there, isRead⟩ := Option.bind_eq_some_iff.mp found
  obtain ⟨member, newest⟩ := ordered.newest path version there
  exact ⟨version, member, isRead, newest⟩

end FileTree

namespace Visit

variable {tree : FileTree} {visit : Visit}

/-- Since `stat` the file was what `stat` saw, or later versions. -/
theorem since_stat (ordered : tree.Ordered) (current : visit.Current tree) {version : FileVersion}
    (there : tree.disk visit.path = some version) : visit.Since tree version.mtimeMs := by
  obtain ⟨member, newest⟩ := ordered.newest visit.path version there
  refine ⟨⟨version, member, rfl⟩, fun other otherMember later content isRead => ?_⟩
  cases ordered.eq_of_mtimeMs otherMember member (le_antisymm (newest other otherMember) later)
  apply current
  rw [FileTree.readFile, there]
  exact isRead

theorem tracked_statted (ordered : tree.Ordered) (current : visit.Current tree) :
    Tracked tree { visit with stage := .statted (tree.stat visit.path) } := by
  refine ⟨current, fun told isTold _ => ?_⟩
  obtain ⟨version, there, rfl⟩ := Option.map_eq_some_iff.mp isTold
  have since := since_stat ordered current there
  exact ⟨since.stamped, since.seen⟩

theorem tracked_read (ordered : tree.Ordered) {mtimeMs : ℚ} (current : visit.Current tree)
    (since : visit.Since tree mtimeMs) :
    Tracked tree { visit with stage := .read mtimeMs (tree.readFile visit.path) } := by
  refine ⟨current, ⟨since.stamped, since.seen⟩, fun data isData => ⟨current data isData, ?_⟩⟩
  obtain ⟨version, member, isRead, newest⟩ := ordered.exists_of_readFile isData
  obtain ⟨stamped, stampedMember, rfl⟩ := since.stamped
  exact ⟨version, member, newest stamped stampedMember, isRead⟩

/-- A reply without a file. -/
theorem tracked_answered {reply : WebReply} (noFile : ∀ path content, reply ≠ .file path content) :
    Tracked tree { visit with stage := .answered reply } :=
  fun path content isFile => absurd isFile (noFile path content)

/-- Behind `stat`: an entry of the cache with the same time is what the file was at
`stat` or since. -/
theorem tracked_afterStat {server : WebGuiServer} {stat : Option FileStat}
    (cached : ∀ path entry, server.fileCache.get? path = some entry →
      HasSince tree path entry.mtimeMs entry.data) (current : visit.Current tree)
    (since : ∀ told, stat = some told → told.isDirectory = false →
      visit.Since tree told.mtimeMs) :
    Tracked tree { visit with stage := server.afterStat visit.path stat } := by
  unfold WebGuiServer.afterStat
  split
  · exact tracked_answered fun _ _ => WebReply.noConfusion
  · next told =>
      split
      · exact tracked_answered fun _ _ => WebReply.noConfusion
      · next isFile =>
          have held := since told rfl (Bool.eq_false_iff.mpr isFile)
          split
          · next entry hit =>
              obtain ⟨listed, same⟩ := Option.filter_eq_some_iff.mp hit
              obtain ⟨version, member, later, isRead⟩ := cached visit.path entry listed
              rw [of_decide_eq_true same] at later
              intro path content isReply
              cases isReply
              exact ⟨rfl, held.seen version member later entry.data isRead⟩
          · exact ⟨current, held.stamped, held.seen⟩

theorem tracked_opened (server : WebGuiServer) (method url : Text) :
    Tracked tree (opened tree (server.filePath (WebGuiServer.urlPath url))
      (server.arrive method url)) := by
  unfold WebGuiServer.arrive
  split
  · exact fun _ _ isFile => WebReply.noConfusion isFile
  · split
    · exact fun _ _ isFile => WebReply.noConfusion isFile
    · split
      · exact fun _ _ isFile => WebReply.noConfusion isFile
      · intro content found
        exact Option.mem_toList.mpr found

end Visit

namespace Site

theorem invariant_start (webRoot : Web.PosixPath.Directory) (disk : Text → Option FileVersion) :
    (start webRoot disk).Invariant where
  ordered := FileTree.ordered_initial disk
  cached path entry listed := by
    rw [start, OrderedMap.get?_empty] at listed
    contradiction
  tracked _ member := by contradiction

/-- A request that goes on keeps the invariant if it knows what it has to. -/
theorem Invariant.proceed {site : Site} (invariant : site.Invariant) (place : Nat) {visit : Visit}
    {stage : Stage} (tracked : Visit.Tracked site.tree { visit with stage }) :
    (site.proceed place visit stage).Invariant where
  ordered := invariant.ordered
  cached := invariant.cached
  tracked other member := by
    rcases List.mem_or_eq_of_mem_set member with earlier | rfl
    · exact invariant.tracked other earlier
    · exact tracked

/-- What one event does. -/
theorem next_cases {site target : Site} {event : SiteEvent}
    (step : next site event = some target) :
    (∃ method url, event = .arrives method url ∧ target = { site with visits := site.visits ++
      [Visit.opened site.tree (site.server.filePath (WebGuiServer.urlPath url))
        (site.server.arrive method url)] }) ∨
    (∃ place visit, event = .stats place ∧ site.visits[place]? = some visit ∧
      visit.stage = .statting ∧
      target = site.proceed place visit (.statted (site.tree.stat visit.path))) ∨
    (∃ place visit mtimeMs, event = .reads place ∧ site.visits[place]? = some visit ∧
      visit.stage = .reading mtimeMs ∧
      target = site.proceed place visit (.read mtimeMs (site.tree.readFile visit.path))) ∨
    (∃ place visit stat, event = .continues place ∧ site.visits[place]? = some visit ∧
      visit.stage = .statted stat ∧
      target = site.proceed place visit (site.server.afterStat visit.path stat)) ∨
    (∃ place visit mtimeMs content, event = .continues place ∧
      site.visits[place]? = some visit ∧ visit.stage = .read mtimeMs content ∧
      target = Site.proceed
        { site with server := (site.server.afterRead visit.path mtimeMs content).2 } place visit
        (site.server.afterRead visit.path mtimeMs content).1) ∨
    (∃ path version, event = .writes path version ∧ target = { site with
      tree := site.tree.write path version
      visits := site.visits.map (Visit.notice path version) }) ∨
    ∃ path, event = .deletes path ∧ target = { site with tree := site.tree.delete path } := by
  cases event with
  | arrives method url =>
      cases step
      exact Or.inl ⟨method, url, rfl, rfl⟩
  | stats place =>
      simp only [next] at step
      split at step
      · next path held found =>
          cases step
          exact Or.inr (Or.inl ⟨place, _, rfl, found, rfl, rfl⟩)
      · contradiction
  | reads place =>
      simp only [next] at step
      split at step
      · next path mtimeMs held found =>
          cases step
          exact Or.inr (Or.inr (Or.inl ⟨place, _, mtimeMs, rfl, found, rfl, rfl⟩))
      · contradiction
  | continues place =>
      simp only [next] at step
      split at step
      · next path stat held found =>
          cases step
          exact Or.inr (Or.inr (Or.inr (Or.inl ⟨place, _, stat, rfl, found, rfl, rfl⟩)))
      · next path mtimeMs content held found =>
          cases step
          exact Or.inr (Or.inr (Or.inr (Or.inr
            (Or.inl ⟨place, _, mtimeMs, content, rfl, found, rfl, rfl⟩))))
      · contradiction
  | writes path version =>
      cases step
      exact Or.inr (Or.inr (Or.inr (Or.inr (Or.inr (Or.inl ⟨path, version, rfl, rfl⟩)))))
  | deletes path =>
      cases step
      exact Or.inr (Or.inr (Or.inr (Or.inr (Or.inr (Or.inr ⟨path, rfl, rfl⟩)))))

theorem Invariant.next {site target : Site} {event : SiteEvent} (invariant : site.Invariant)
    (advances : site.Advances event) (step : Site.next site event = some target) :
    target.Invariant := by
  rcases next_cases step with ⟨method, url, rfl, rfl⟩ | ⟨place, visit, rfl, found, stage, rfl⟩ |
    ⟨place, visit, mtimeMs, rfl, found, stage, rfl⟩ | ⟨place, visit, stat, rfl, found, stage, rfl⟩ |
    ⟨place, visit, mtimeMs, content, rfl, found, stage, rfl⟩ | ⟨path, version, rfl, rfl⟩ |
    ⟨path, rfl, rfl⟩
  · refine ⟨invariant.ordered, invariant.cached, fun visit member => ?_⟩
    rcases List.mem_append.mp member with earlier | last
    · exact invariant.tracked visit earlier
    · rw [List.mem_singleton.mp last]
      exact Visit.tracked_opened site.server method url
  · have tracked := invariant.tracked visit (List.mem_of_getElem? found)
    simp only [Visit.Tracked, stage] at tracked
    exact invariant.proceed place (Visit.tracked_statted invariant.ordered tracked)
  · have tracked := invariant.tracked visit (List.mem_of_getElem? found)
    simp only [Visit.Tracked, stage] at tracked
    exact invariant.proceed place (Visit.tracked_read invariant.ordered tracked.1 tracked.2)
  · have tracked := invariant.tracked visit (List.mem_of_getElem? found)
    simp only [Visit.Tracked, stage] at tracked
    exact invariant.proceed place (Visit.tracked_afterStat invariant.cached tracked.1 tracked.2)
  · have tracked := invariant.tracked visit (List.mem_of_getElem? found)
    simp only [Visit.Tracked, stage] at tracked
    cases content with
    | none => exact invariant.proceed place (Visit.tracked_answered fun _ _ => WebReply.noConfusion)
    | some data =>
        obtain ⟨member, has⟩ := tracked.2.2 data rfl
        have answered : Visit.Tracked site.tree
            { visit with stage := .answered (.file visit.path data) } := by
          intro path content isFile
          cases isFile
          exact ⟨rfl, member⟩
        have cached : ∀ path entry,
            (site.server.afterRead visit.path mtimeMs (some data)).2.fileCache.get? path
              = some entry → Visit.HasSince site.tree path entry.mtimeMs entry.data := by
          intro path entry listed
          by_cases own : path = visit.path
          · subst own
            rw [WebGuiServer.afterRead, OrderedMap.get?_set_self] at listed
            cases listed
            exact has
          · rw [WebGuiServer.afterRead, OrderedMap.get?_set_of_ne own] at listed
            exact invariant.cached path entry listed
        have kept : Site.Invariant { site with
            server := (site.server.afterRead visit.path mtimeMs (some data)).2 } :=
          ⟨invariant.ordered, cached, invariant.tracked⟩
        exact kept.proceed place answered
  · refine ⟨invariant.ordered.write advances, fun other entry listed =>
      (invariant.cached other entry listed).write path version, fun visit member => ?_⟩
    obtain ⟨earlier, earlierMember, rfl⟩ := List.mem_map.mp member
    exact (invariant.tracked earlier earlierMember).notice path version
  · exact ⟨invariant.ordered.delete path, invariant.cached, fun visit member =>
      (invariant.tracked visit member).delete path⟩

/-! ## Requests alone -/

section Alone

variable (site : Site) (path : Text) (held : List (List UInt8))

/-- A site with one more request, in the last place. -/
def withLast (stage : Stage) : Site :=
  { site with visits := site.visits ++ [⟨path, stage, held⟩] }

theorem proceed_withLast (stage after : Stage) :
    (site.withLast path held stage).proceed site.visits.length ⟨path, stage, held⟩ after =
      site.withLast path held after := by
  simp [withLast, proceed]

theorem getElem?_withLast (stage : Stage) :
    (site.withLast path held stage).visits[site.visits.length]? = some ⟨path, stage, held⟩ := by
  simp [withLast]

theorem stats_withLast : next (site.withLast path held .statting) (.stats site.visits.length) =
    some (site.withLast path held (.statted (site.tree.stat path))) := by
  simp only [next, getElem?_withLast, proceed_withLast]
  rfl

theorem continues_statted (stat : Option FileStat) :
    next (site.withLast path held (.statted stat)) (.continues site.visits.length) =
      some (site.withLast path held (site.server.afterStat path stat)) := by
  simp only [next, getElem?_withLast, proceed_withLast]
  rfl

theorem reads_withLast (mtimeMs : ℚ) :
    next (site.withLast path held (.reading mtimeMs)) (.reads site.visits.length) =
      some (site.withLast path held (.read mtimeMs (site.tree.readFile path))) := by
  simp only [next, getElem?_withLast, proceed_withLast]
  rfl

theorem continues_read (mtimeMs : ℚ) (content : Option (List UInt8)) :
    next (site.withLast path held (.read mtimeMs content)) (.continues site.visits.length) =
      some (withLast { site with server := (site.server.afterRead path mtimeMs content).2 } path held
        (site.server.afterRead path mtimeMs content).1) := by
  simp only [next, getElem?_withLast]
  simp [withLast, proceed]

/-- A request that is statted and then alone ends as in `handleRequest`. -/
theorem run_statted {stat : FileStat} (isFile : stat.isDirectory = false) :
    ∃ events, run next (site.withLast path held (.statted (some stat))) events =
      some (withLast
        { site with server :=
          (site.server.serveFile ⟨site.tree.stat, site.tree.readFile⟩ path stat).server }
        path held
        (.answered (site.server.serveFile ⟨site.tree.stat, site.tree.readFile⟩ path stat).reply)) := by
  have first := site.continues_statted path held (some stat)
  unfold WebGuiServer.serveFile
  dsimp only
  unfold WebGuiServer.afterStat at first
  simp only [isFile, Bool.false_eq_true, if_false] at first
  cases hit : (site.server.fileCache.get? path).filter fun entry => entry.mtimeMs = stat.mtimeMs with
  | some entry =>
      simp only [hit] at first
      exact ⟨[.continues site.visits.length], by rw [run_cons, first]; rfl⟩
  | none =>
      simp only [hit] at first
      refine ⟨[.continues site.visits.length, .reads site.visits.length,
        .continues site.visits.length], ?_⟩
      rw [run_cons, first, Option.bind_some, run_cons, reads_withLast, Option.bind_some, run_cons,
        continues_read, Option.bind_some, run_nil]
      cases site.tree.readFile path <;> rfl

end Alone

/-- A request without others in between is handled as by `handleRequest`. -/
theorem handleRequest_of_alone (site : Site) (method url : Text) : ∃ events held,
    run next site (.arrives method url :: events) =
      some (withLast
        { site with server :=
          (site.server.handleRequest ⟨site.tree.stat, site.tree.readFile⟩ method url).server }
        (site.server.filePath (WebGuiServer.urlPath url)) held
        (.answered
          (site.server.handleRequest ⟨site.tree.stat, site.tree.readFile⟩ method url).reply)) := by
  set path := site.server.filePath (WebGuiServer.urlPath url) with isPath
  have first : next site (.arrives method url) =
      some (site.withLast path
        (if (site.server.arrive method url).isAnswered then [] else (site.tree.readFile path).toList)
        (site.server.arrive method url)) := rfl
  simp only [run_cons, first, Option.bind_some]
  unfold WebGuiServer.handleRequest WebGuiServer.arrive
  split
  · exact ⟨[], _, rfl⟩
  · split
    · exact ⟨[], _, rfl⟩
    · dsimp only
      rw [← isPath]
      split
      · exact ⟨[], _, rfl⟩
      · set held := if Stage.statting.isAnswered = true then []
          else (site.tree.readFile path).toList
        cases told : site.tree.stat path with
        | none =>
            refine ⟨[.stats site.visits.length, .continues site.visits.length], held, ?_⟩
            rw [run_cons, stats_withLast, told, Option.bind_some, run_cons, continues_statted]
            rfl
        | some stat =>
            cases directory : stat.isDirectory with
            | true =>
                refine ⟨[.stats site.visits.length, .continues site.visits.length], held, ?_⟩
                rw [run_cons, stats_withLast, told, Option.bind_some, run_cons, continues_statted]
                simp [WebGuiServer.afterStat, directory]
            | false =>
                obtain ⟨events, isRun⟩ := site.run_statted path held directory
                refine ⟨.stats site.visits.length :: events, held, ?_⟩
                rw [run_cons, stats_withLast, told, Option.bind_some, isRun]
                simp [directory]

/-! ## What is served -/

/-- Some time in the run the file had the content and the request in this place
was not answered. -/
def SeenDuring (start : Site) (events : List SiteEvent) (place : Nat) (path : Text)
    (content : List UInt8) : Prop :=
  ∃ before after middle visit, events = before ++ after ∧
    run next start before = some middle ∧ middle.visits[place]? = some visit ∧
    visit.path = path ∧ visit.stage.isAnswered = false ∧
    middle.tree.readFile path = some content

/-- The URLs of the requests of a run. -/
def urls (events : List SiteEvent) : List Text :=
  events.filterMap fun event => match event with
    | .arrives _ url => some url
    | _ => none

/-- A request in a place after some went on. -/
theorem getElem?_proceed {site : Site} {place other : Nat} {visit found : Visit} {stage : Stage}
    (there : site.visits[place]? = some visit)
    (isFound : (site.proceed place visit stage).visits[other]? = some found) :
    ∃ earlier, site.visits[other]? = some earlier ∧ earlier.path = found.path ∧
      earlier.held = found.held := by
  rw [proceed] at isFound
  by_cases same : place = other
  · subst same
    rw [List.getElem?_set_self (List.getElem?_eq_some_iff.mp there).1] at isFound
    cases isFound
    exact ⟨visit, there, rfl, rfl⟩
  · rw [List.getElem?_set_ne same] at isFound
    exact ⟨found, isFound, rfl, rfl⟩

/-- A request has a content from before, or its file has it now. -/
theorem held_next {site target : Site} {event : SiteEvent}
    (step : next site event = some target) {place : Nat} {visit : Visit}
    (there : target.visits[place]? = some visit) {content : List UInt8}
    (member : content ∈ visit.held) :
    (∃ earlier, site.visits[place]? = some earlier ∧ earlier.path = visit.path ∧
      content ∈ earlier.held) ∨
    (visit.stage.isAnswered = false ∧ target.tree.readFile visit.path = some content) := by
  have goesOn : ∀ {at_ : Nat} {before : Visit} {stage : Stage},
      site.visits[at_]? = some before →
      (site.proceed at_ before stage).visits[place]? = some visit →
      ∃ earlier, site.visits[place]? = some earlier ∧ earlier.path = visit.path ∧
        content ∈ earlier.held := by
    intro at_ before stage found isFound
    obtain ⟨earlier, isEarlier, samePath, sameHeld⟩ := getElem?_proceed found isFound
    exact ⟨earlier, isEarlier, samePath, sameHeld ▸ member⟩
  rcases next_cases step with ⟨method, url, rfl, rfl⟩ | ⟨at_, before, rfl, found, stage, rfl⟩ |
    ⟨at_, before, mtimeMs, rfl, found, stage, rfl⟩ | ⟨at_, before, stat, rfl, found, stage, rfl⟩ |
    ⟨at_, before, mtimeMs, read, rfl, found, stage, rfl⟩ | ⟨path, version, rfl, rfl⟩ |
    ⟨path, rfl, rfl⟩
  · rcases lt_or_ge place site.visits.length with inside | outside
    · rw [List.getElem?_append_left inside] at there
      exact Or.inl ⟨visit, there, rfl, member⟩
    · rw [List.getElem?_append_right outside] at there
      have isOpened := List.mem_singleton.mp (List.mem_of_getElem? there)
      subst isOpened
      simp only [Visit.opened] at member ⊢
      split at member
      · contradiction
      · next waits =>
          exact Or.inr ⟨Bool.eq_false_iff.mpr waits, Option.mem_toList.mp member⟩
  · exact Or.inl (goesOn found there)
  · exact Or.inl (goesOn found there)
  · exact Or.inl (goesOn found there)
  · exact Or.inl (goesOn found there)
  · simp only [List.getElem?_map, Option.map_eq_some_iff] at there
    obtain ⟨earlier, isEarlier, rfl⟩ := there
    unfold Visit.notice at member ⊢
    split
    · next own =>
        rw [if_pos own] at member
        rcases List.mem_append.mp member with isNew | isOld
        · refine Or.inr ⟨own.2, ?_⟩
          rw [show earlier.path = path from own.1, FileTree.readFile_write_self]
          exact Option.mem_toList.mp isNew
        · exact Or.inl ⟨earlier, isEarlier, rfl, isOld⟩
    · next other =>
        rw [if_neg other] at member
        exact Or.inl ⟨earlier, isEarlier, rfl, member⟩
  · exact Or.inl ⟨visit, there, rfl, member⟩

theorem SeenDuring.append {start : Site} {events : List SiteEvent} {place : Nat} {path : Text}
    {content : List UInt8} (seen : SeenDuring start events place path content)
    (later : List SiteEvent) : SeenDuring start (events ++ later) place path content := by
  obtain ⟨before, after, middle, visit, rfl, reached, rest⟩ := seen
  exact ⟨before, after ++ later, middle, visit, List.append_assoc _ _ _, reached, rest⟩

/-- What a request has seen the file had while the request was handled. -/
theorem seenDuring_of_held {start target : Site} (empty : start.visits = [])
    {events : List SiteEvent} (reached : run next start events = some target) {place : Nat}
    {visit : Visit} (there : target.visits[place]? = some visit) {content : List UInt8}
    (member : content ∈ visit.held) :
    SeenDuring start events place visit.path content := by
  induction events using List.reverseRecOn generalizing target visit with
  | nil =>
      cases reached
      rw [empty] at there
      contradiction
  | append_singleton events event ih =>
      have whole := reached
      rw [run_append] at reached
      obtain ⟨middle, earlierRun, last⟩ := Option.bind_eq_some_iff.mp reached
      have step : next middle event = some target := by
        simpa only [run_cons, run_nil, Option.bind_fun_some] using last
      rcases held_next step there member with ⟨earlier, isEarlier, samePath, isHeld⟩ | ⟨waits, now⟩
      · rw [← samePath]
        exact (ih earlierRun isEarlier isHeld).append [event]
      · exact ⟨events ++ [event], [], target, visit, (List.append_nil _).symm, whole, there, rfl,
          waits, now⟩

theorem webRoot_next {site target : Site} {event : SiteEvent}
    (step : next site event = some target) : target.server.webRoot = site.server.webRoot := by
  rcases next_cases step with ⟨method, url, rfl, rfl⟩ | ⟨place, visit, rfl, found, stage, rfl⟩ |
    ⟨place, visit, mtimeMs, rfl, found, stage, rfl⟩ | ⟨place, visit, stat, rfl, found, stage, rfl⟩ |
    ⟨place, visit, mtimeMs, content, rfl, found, stage, rfl⟩ | ⟨path, version, rfl, rfl⟩ |
    ⟨path, rfl, rfl⟩
  case inr.inr.inr.inr.inl => cases content <;> rfl
  all_goals rfl

theorem map_path_proceed {site : Site} {place : Nat} {visit : Visit} (stage : Stage)
    (found : site.visits[place]? = some visit) :
    (site.proceed place visit stage).visits.map Visit.path = site.visits.map Visit.path := by
  have own : (site.visits.map Visit.path)[place]? = some visit.path := by
    rw [List.getElem?_map, found, Option.map_some]
  rw [proceed, List.map_set]
  exact List.ext_getElem? fun other => by
    by_cases same : place = other
    · subst same
      have inside := (List.getElem?_eq_some_iff.mp own).1
      rw [List.getElem?_set_self inside, own]
    · rw [List.getElem?_set_ne same]

theorem map_path_next {site target : Site} {event : SiteEvent}
    (step : next site event = some target) :
    target.visits.map Visit.path = site.visits.map Visit.path ++
      (urls [event]).map fun url => site.server.filePath (WebGuiServer.urlPath url) := by
  rcases next_cases step with ⟨method, url, rfl, rfl⟩ | ⟨place, visit, rfl, found, stage, rfl⟩ |
    ⟨place, visit, mtimeMs, rfl, found, stage, rfl⟩ | ⟨place, visit, stat, rfl, found, stage, rfl⟩ |
    ⟨place, visit, mtimeMs, content, rfl, found, stage, rfl⟩ | ⟨path, version, rfl, rfl⟩ |
    ⟨path, rfl, rfl⟩
  · rw [List.map_append]
    rfl
  · exact (map_path_proceed _ found).trans (List.append_nil _).symm
  · exact (map_path_proceed _ found).trans (List.append_nil _).symm
  · exact (map_path_proceed _ found).trans (List.append_nil _).symm
  · exact (map_path_proceed _ found).trans (List.append_nil _).symm
  · have same : Visit.path ∘ Visit.notice path version = Visit.path := by
      funext visit
      simp only [Function.comp_apply, Visit.notice]
      split <;> rfl
    rw [List.map_map, same]
    exact (List.append_nil _).symm
  · exact (List.append_nil _).symm

/-- The requests stay in the order of their arrival. -/
theorem paths_of_run {start target : Site} {events : List SiteEvent}
    (reached : run next start events = some target) :
    target.visits.map Visit.path = start.visits.map Visit.path ++
      (urls events).map fun url => start.server.filePath (WebGuiServer.urlPath url) := by
  induction events generalizing start with
  | nil =>
      cases reached
      exact (List.append_nil _).symm
  | cons event rest ih =>
      obtain ⟨middle, first, later⟩ := Option.bind_eq_some_iff.mp reached
      have samePath : middle.server.filePath = start.server.filePath := by
        funext path
        rw [WebGuiServer.filePath, WebGuiServer.filePath, webRoot_next first]
      have split : urls (event :: rest) = urls [event] ++ urls rest :=
        List.filterMap_append (l := [event])
      rw [ih later, map_path_next first, samePath, split, List.map_append, List.append_assoc]

/-- What holds of the requests after a run. -/
structure Served (start : Site) (events : List SiteEvent) (target : Site) : Prop where
  paths : target.visits.map Visit.path =
    (urls events).map fun url => start.server.filePath (WebGuiServer.urlPath url)
  files : ∀ place visit, target.visits[place]? = some visit → ∀ path content,
    visit.stage = .answered (.file path content) →
      path = visit.path ∧ SeenDuring start events place path content

/-- Whatever the order of events: a request that is answered with a file gets the
path it asked for, with a content that the file had while the request waited. -/
theorem served_of_run {webRoot : Web.PosixPath.Directory} {disk : Text → Option FileVersion}
    {events : List SiteEvent} {target : Site}
    (advancing : Throughout next Advances (start webRoot disk) events)
    (reached : run next (start webRoot disk) events = some target) :
    Served (start webRoot disk) events target := by
  have invariant : target.Invariant :=
    advancing.invariant Invariant (fun invariant advances step => invariant.next advances step)
      (invariant_start webRoot disk) reached
  refine ⟨paths_of_run reached, fun place visit there path content answered => ?_⟩
  have tracked := invariant.tracked visit (List.mem_of_getElem? there)
  simp only [Visit.Tracked, answered] at tracked
  obtain ⟨samePath, held⟩ := tracked path content rfl
  rw [samePath]
  exact ⟨rfl, seenDuring_of_held rfl reached there held⟩

/-- The page of the dashboard in its first version. -/
def pageExample : Text → Option FileVersion :=
  fun path => if path = "/srv/webgui/index.html".toList then some ⟨false, 1, [1]⟩ else none

/-- The page changes between `stat` and `readFile` of a request. -/
def rewriteExample : List SiteEvent :=
  [.arrives "GET".toList "/".toList, .stats 0, .continues 0,
    .writes "/srv/webgui/index.html".toList ⟨false, 2, [2]⟩, .reads 0, .continues 0]

theorem served_rewriteExample : ∃ target,
    run next (start WebGuiServer.srvExample.webRoot pageExample) rewriteExample = some target ∧
      Served (start WebGuiServer.srvExample.webRoot pageExample) rewriteExample target :=
  ⟨_, rfl, served_of_run (by decide +kernel) rfl⟩

example : (run next (start WebGuiServer.srvExample.webRoot pageExample) rewriteExample).map
    (fun site => site.visits.map fun visit => match visit.stage with
      | .answered (.file _ content) => some content
      | _ => none) = some [some [2]] := by
  decide +kernel

end Site

end ZcashSoloPool.Dashboard
