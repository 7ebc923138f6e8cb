import MidnightJs.Foundations.JsString
import MidnightJs.Foundations.StableSort
import Mathlib.Data.Int.Notation
import Mathlib.Data.List.Nodup

/-! # Installed versions of the compiler

`packages/compact/src/version-manager.ts`, `run-utils.ts`, `run-compactc.cjs`, `fetch-utils.ts` and
`fetch-compact.mts`. The directory `managed` has a directory for each version, and a version is
installed when there is a `compactc` in it. Versions are plain file names here. -/

namespace MidnightJs.Compact
open Foundations Foundations.Js
set_option autoImplicit false

/-- An entry of `managed`, and whether there is a `compactc` in it. -/
structure Dirent where
  name : JsString
  isDirectory : Bool
  compactc : Bool

/-- The entries in the order in which they are listed. -/
structure ManagedDir where
  dirents : List Dirent
  nodup : (dirents.map Dirent.name).Nodup

/-- `a.localeCompare(b, undefined, { numeric: true })`. -/
structure Collator where
  localeCompare : JsString → JsString → ℤ
  swap : ∀ a b, localeCompare a b ≤ 0 ↔ 0 ≤ localeCompare b a
  trans : ∀ a b c, localeCompare a b ≤ 0 → localeCompare b c ≤ 0 → localeCompare a c ≤ 0

def Collator.order (collator : Collator) : TotalPreorder JsString where
  le a b := decide (collator.localeCompare a b ≤ 0)
  trans a b c hab hbc :=
    decide_eq_true (collator.trans a b c (of_decide_eq_true hab) (of_decide_eq_true hbc))
  total a b := by
    rw [Bool.or_eq_true, decide_eq_true_eq, decide_eq_true_eq, collator.swap b a]
    exact Int.le_total _ _

/-! ## The version manager -/

namespace ManagedDir

/-- Whether `compactc` exists in the directory of the version. -/
def versionExists (dir : ManagedDir) (version : JsString) : Bool :=
  dir.dirents.any fun dirent => dirent.name = version && dirent.compactc

/-- The versions in the order in which they are listed. -/
def versions (dir : ManagedDir) : List JsString :=
  ((dir.dirents.filter Dirent.isDirectory).map Dirent.name).filter dir.versionExists

def removeVersion (dir : ManagedDir) (version : JsString) : ManagedDir where
  dirents := dir.dirents.filter fun dirent => dirent.name ≠ version
  nodup := dir.nodup.sublist (List.filter_sublist.map _)

/-- `slice(0, -keepCount)`. -/
def sliceBefore (versions : List JsString) (keepCount : ℕ) : List JsString :=
  if keepCount = 0 then [] else versions.take (versions.length - keepCount)

end ManagedDir

/-- `managed`, if there is one. -/
abbrev Managed := Option ManagedDir

def ensureManagedDirExists (managed : Managed) : ManagedDir := managed.getD ⟨[], List.nodup_nil⟩

section
variable (collator : Collator)

def listVersions (managed : Managed) : List JsString :=
  match managed with
  | none => []
  | some dir => collator.order.sort dir.versions

def cleanupOldVersions (managed : Managed) (keepCount : ℕ) : Managed :=
  let toRemove := ManagedDir.sliceBefore (listVersions collator managed) keepCount
  managed.map fun dir => toRemove.foldl ManagedDir.removeVersion dir

/-! ## Finding the compiler -/

def getVersionDir (packageDir version : JsString) : JsString :=
  packageDir ++ js "/managed/" ++ version

/-- What both scripts do without `COMPACT_HOME`. -/
def resolveManaged (packageDir : JsString) (managed : Managed) (version : Option JsString) :
    Except JsError JsString :=
  let requested := version.filter fun version => version ≠ []
  match requested with
  | some version =>
    if managed.any fun dir => dir.versionExists version then .ok (getVersionDir packageDir version)
    else .error (.error (js "Compact version " ++ version ++ js " not found at " ++
      getVersionDir packageDir version ++ js ". Run fetch-compactc --version=" ++ version ++
      js " first."))
  | none =>
    match (collator.order.flip.sort (managed.elim [] ManagedDir.versions)).head? with
    | none => .error (.error (js "No Compact versions found. Run fetch-compactc first."))
    | some latestVersion => .ok (getVersionDir packageDir latestVersion)

/-- `resolveCompactPath` of `run-utils.ts`. -/
def resolveCompactPath (compactHome : Option JsString) (packageDir : JsString) (managed : Managed)
    (version : Option JsString) : Except JsError JsString :=
  match compactHome.filter fun compactHome => compactHome ≠ [] with
  | some compactHome => .ok compactHome
  | none => resolveManaged collator packageDir managed version

/-- `resolveCompactPath` of `run-compactc.cjs`. -/
def resolveCompactPathOfScript (compactHome : Option JsString) (packageDir : JsString)
    (managed : Managed) (version : Option JsString) : Except JsError JsString :=
  match compactHome with
  | some compactHome => .ok compactHome
  | none => resolveManaged collator packageDir managed version

end

/-- An empty `COMPACT_HOME` is a path to the script, and no path to the other function. -/
theorem resolveCompactPath_eq_script {collator : Collator} {compactHome : Option JsString}
    (h : compactHome ≠ some []) (packageDir : JsString) (managed : Managed)
    (version : Option JsString) :
    resolveCompactPath collator compactHome packageDir managed version =
      resolveCompactPathOfScript collator compactHome packageDir managed version := by
  cases compactHome with
  | none => rfl
  | some path =>
    have hpath : path ≠ [] := fun hnil => h (congrArg some hnil)
    simp [resolveCompactPath, resolveCompactPathOfScript, Option.filter, hpath]

/-! ## Fetching -/

/-- How far a download goes. The directory of the version is removed once the archive is there, and
then made again to unzip the archive into. -/
inductive Download
  /-- There is no archive. -/
  | failed
  /-- The directory could not be made again. -/
  | removed
  /-- `unzip` has run, and whether it has failed or not, there is a `compactc` or there is none. -/
  | unzipped (compactc : Bool)

def shouldSkipDownload (managed : Managed) (version : JsString) (force : Bool) : Bool :=
  !force && managed.any fun dir => dir.versionExists version

/-- The directory of the version is removed and made again. -/
def ManagedDir.unpack (dir : ManagedDir) (version : JsString) (compactc : Bool) : ManagedDir where
  dirents := (dir.removeVersion version).dirents ++ [⟨version, true, compactc⟩]
  nodup := by
    rw [List.map_append, List.map_cons, List.map_nil, List.nodup_append]
    refine ⟨(dir.removeVersion version).nodup, List.nodup_singleton _, ?_⟩
    rintro name hname _ hversion rfl
    obtain ⟨dirent, hdirent, rfl⟩ := List.mem_map.mp hname
    exact of_decide_eq_true (List.mem_filter.mp hdirent).2 (List.mem_singleton.mp hversion)

/-- `fetch-compact.mts` without `COMPACT_HOME`. -/
def fetchCompact (managed : Managed) (version : JsString) (force : Bool) (download : Download) :
    Managed :=
  if shouldSkipDownload managed version force then managed
  else
    let dir := ensureManagedDirExists managed
    match download with
    | .failed => some dir
    | .removed => some (dir.removeVersion version)
    | .unzipped compactc => some (dir.unpack version compactc)

/-! ## What is installed -/

section
variable {collator : Collator} {dir dir' : ManagedDir} {managed managed' : Managed}
  {version : JsString}

namespace ManagedDir

theorem mem_versions : version ∈ dir.versions ↔
    ∃ dirent ∈ dir.dirents, dirent.name = version ∧ dirent.isDirectory = true ∧
      dirent.compactc = true := by
  unfold versions versionExists
  rw [List.mem_filter, List.mem_map, List.any_eq_true]
  constructor
  · rintro ⟨⟨dirent, hdirent, rfl⟩, dirent', hmem', hexists⟩
    rw [Bool.and_eq_true, decide_eq_true_eq] at hexists
    obtain ⟨hmem, hdir⟩ := List.mem_filter.mp hdirent
    have heq := List.inj_on_of_nodup_map dir.nodup hmem' hmem hexists.1
    subst heq
    exact ⟨dirent', hmem', rfl, hdir, hexists.2⟩
  · rintro ⟨dirent, hmem, rfl, hdir, hcompactc⟩
    refine ⟨⟨dirent, List.mem_filter.mpr ⟨hmem, hdir⟩, rfl⟩, dirent, hmem, ?_⟩
    rw [hcompactc, Bool.and_true, decide_eq_true_eq]

theorem nodup_versions (dir : ManagedDir) : dir.versions.Nodup :=
  (dir.nodup.sublist (List.filter_sublist.map _)).filter _

theorem dirents_removeVersions (dir : ManagedDir) (toRemove : List JsString) :
    (toRemove.foldl removeVersion dir).dirents =
      dir.dirents.filter fun dirent => dirent.name ∉ toRemove := by
  induction toRemove generalizing dir with
  | nil => simp
  | cons version toRemove ih =>
    rw [List.foldl_cons, ih, removeVersion, List.filter_filter]
    congr 1
    funext dirent
    simp [Bool.and_comm]

theorem versions_removeVersions (dir : ManagedDir) (toRemove : List JsString) :
    (toRemove.foldl removeVersion dir).versions =
      dir.versions.filter fun version => version ∉ toRemove := by
  have hexists : ∀ version, version ∉ toRemove →
      (toRemove.foldl removeVersion dir).versionExists version = dir.versionExists version := by
    intro version hversion
    unfold versionExists
    rw [dirents_removeVersions, List.any_filter]
    congr 1
    funext dirent
    by_cases hname : dirent.name = version
    · simp [hname, hversion]
    · simp [hname]
  unfold versions
  rw [dirents_removeVersions, List.filter_filter, List.filter_map, List.filter_map, List.filter_map,
    List.filter_filter, List.filter_filter, List.filter_filter]
  congr 1
  refine List.filter_congr fun dirent _ => ?_
  by_cases hname : dirent.name ∈ toRemove
  · simp [hname]
  · simp [hname, hexists _ hname]

end ManagedDir

variable (collator) in
/-- The version that is used when none is asked for. -/
def latestVersion (managed : Managed) : Option JsString :=
  collator.order.latest (managed.elim [] ManagedDir.versions)

theorem mem_listVersions : version ∈ listVersions collator managed ↔
    version ∈ managed.elim [] ManagedDir.versions := by
  cases managed with
  | none => exact Iff.rfl
  | some dir => exact TotalPreorder.mem_sort

theorem getVersionDir_inj {packageDir v w : JsString} :
    getVersionDir packageDir v = getVersionDir packageDir w ↔ v = w := List.append_right_inj _

theorem resolve_latest {packageDir : JsString} :
    resolveCompactPath collator none packageDir managed none = .ok (getVersionDir packageDir version) ↔
      latestVersion collator managed = some version := by
  change (match latestVersion collator managed with
    | none => Except.error _
    | some latestVersion => Except.ok (getVersionDir packageDir latestVersion)) = _ ↔ _
  cases latestVersion collator managed with
  | none => simp
  | some v => rw [Except.ok.injEq, getVersionDir_inj, Option.some.injEq]

/-! ## Cleaning up -/

/-- What is kept, in the order in which it is listed. -/
theorem versions_cleanup (dir : ManagedDir) (keepCount : ℕ) :
    (cleanupOldVersions collator (some dir) keepCount).elim [] ManagedDir.versions =
      dir.versions.filter fun version =>
        version ∉ ManagedDir.sliceBefore (collator.order.sort dir.versions) keepCount :=
  dir.versions_removeVersions _

omit collator in
theorem mem_drop_iff {s : List JsString} (h : s.Nodup) {j : ℕ} {v : JsString} :
    v ∈ s.drop j ↔ v ∈ s ∧ v ∉ s.take j := by
  have hsplit := h
  rw [← List.take_append_drop j s, List.nodup_append] at hsplit
  constructor
  · intro hdrop
    exact ⟨List.mem_of_mem_drop hdrop, fun htake => hsplit.2.2 v htake v hdrop rfl⟩
  · rintro ⟨hmem, htake⟩
    rw [← List.take_append_drop j s, List.mem_append] at hmem
    exact hmem.resolve_left htake

/-- The latest versions are kept. -/
theorem listVersions_cleanup (managed : Managed) {keepCount : ℕ} (h : 0 < keepCount) :
    (listVersions collator (cleanupOldVersions collator managed keepCount)).Perm
      ((listVersions collator managed).drop
        ((listVersions collator managed).length - keepCount)) := by
  cases managed with
  | none => simp [cleanupOldVersions, listVersions]
  | some dir =>
    refine (TotalPreorder.sort_perm _).trans ?_
    have hkept := @versions_cleanup collator dir keepCount
    change ManagedDir.versions _ = _ at hkept
    rw [hkept, ManagedDir.sliceBefore, if_neg (Nat.pos_iff_ne_zero.mp h)]
    have hsorted : (collator.order.sort dir.versions).Nodup :=
      (TotalPreorder.sort_perm _).nodup_iff.mpr dir.nodup_versions
    refine (List.perm_ext_iff_of_nodup (dir.nodup_versions.filter _)
      (hsorted.sublist (List.drop_sublist _ _))).mpr fun version => ?_
    rw [List.mem_filter, decide_eq_true_eq, ← TotalPreorder.mem_sort (p := collator.order),
      mem_drop_iff hsorted]
    rfl

theorem sliceBefore_eq_nil {l : List JsString} {keepCount : ℕ} (h : l.length ≤ keepCount) :
    ManagedDir.sliceBefore l keepCount = [] := by
  unfold ManagedDir.sliceBefore
  rw [Nat.sub_eq_zero_of_le h, List.take_zero, ite_self]

/-- The version in use stays in use exactly if no more versions tie with it than are kept. -/
theorem latestVersion_cleanup (managed : Managed) {keepCount : ℕ} (hkeep : 0 < keepCount)
    {v : JsString} (h : latestVersion collator managed = some v) :
    latestVersion collator (cleanupOldVersions collator managed keepCount) = some v ↔
      (collator.order.ties v (listVersions collator managed)).length ≤ keepCount := by
  cases managed with
  | none => exact absurd (TotalPreorder.latest_mem h) List.not_mem_nil
  | some dir =>
    change collator.order.latest dir.versions = some v at h
    unfold latestVersion
    rw [versions_cleanup, TotalPreorder.latest_filter h, decide_eq_true_eq, ManagedDir.sliceBefore,
      if_neg (Nat.pos_iff_ne_zero.mp hkeep)]
    have hsorted : (collator.order.sort dir.versions).Nodup :=
      (TotalPreorder.sort_perm _).nodup_iff.mpr dir.nodup_versions
    have hmem : v ∈ collator.order.sort dir.versions :=
      TotalPreorder.mem_sort.mpr (TotalPreorder.latest_mem h)
    unfold listVersions
    rw [TotalPreorder.ties_sort, ← TotalPreorder.latest_mem_drop dir.nodup_versions h,
      ← TotalPreorder.length_sort (p := collator.order) dir.versions, mem_drop_iff hsorted]
    exact ⟨fun hnot => ⟨hmem, hnot⟩, fun hdrop => hdrop.2⟩

/-- Cleaning up keeps the given number of latest versions, and again leaves them alone. The version
that the compiler is run with changes exactly if more versions tie with it than are kept. -/
theorem cleanup_keeps_latest (collator : Collator) (packageDir : JsString) (managed : Managed)
    {keepCount : ℕ} (hkeep : 0 < keepCount) :
    (listVersions collator (cleanupOldVersions collator managed keepCount)).Perm
        ((listVersions collator managed).drop
          ((listVersions collator managed).length - keepCount)) ∧
      cleanupOldVersions collator (cleanupOldVersions collator managed keepCount) keepCount =
        cleanupOldVersions collator managed keepCount ∧
      ∀ v, resolveCompactPath collator none packageDir managed none =
          .ok (getVersionDir packageDir v) →
        (resolveCompactPath collator none packageDir
            (cleanupOldVersions collator managed keepCount) none =
            .ok (getVersionDir packageDir v) ↔
          (collator.order.ties v (listVersions collator managed)).length ≤ keepCount) := by
  have hperm := @listVersions_cleanup collator managed _ hkeep
  refine ⟨hperm, ?_, fun v hv => ?_⟩
  · have hlength := hperm.length_eq
    rw [List.length_drop] at hlength
    rw [cleanupOldVersions.eq_1 collator (cleanupOldVersions collator managed keepCount),
      sliceBefore_eq_nil (by omega)]
    simp
  · rw [resolve_latest] at hv ⊢
    exact latestVersion_cleanup managed hkeep hv

/-! ## Fetching what is installed -/

/-- Whether the version is still installed if it was. -/
def Download.keeps (download : Download) : Bool :=
  match download with
  | .failed => true
  | .removed => false
  | .unzipped compactc => compactc

theorem mem_removeVersion {dir : ManagedDir} {v version : JsString} :
    v ∈ (dir.removeVersion version).versions ↔ v ∈ dir.versions ∧ v ≠ version := by
  have h := dir.versions_removeVersions [version]
  rw [List.foldl_cons, List.foldl_nil] at h
  rw [h, List.mem_filter, decide_eq_true_eq, List.mem_singleton]

theorem mem_unpack {dir : ManagedDir} {v version : JsString} {compactc : Bool} :
    v ∈ (dir.unpack version compactc).versions ↔
      v ∈ dir.versions ∧ v ≠ version ∨ v = version ∧ compactc = true := by
  rw [← mem_removeVersion, ManagedDir.mem_versions, ManagedDir.mem_versions]
  constructor
  · rintro ⟨dirent, hmem, hdirent⟩
    obtain hmem | hmem := List.mem_append.mp hmem
    · exact .inl ⟨dirent, hmem, hdirent⟩
    · rw [List.mem_singleton.mp hmem] at hdirent
      exact .inr ⟨hdirent.1.symm, hdirent.2.2⟩
  · rintro (⟨dirent, hmem, hdirent⟩ | ⟨rfl, hcompactc⟩)
    · exact ⟨dirent, List.mem_append_left _ hmem, hdirent⟩
    · exact ⟨_, List.mem_append_right _ (List.mem_singleton.mpr rfl), rfl, rfl, hcompactc⟩

theorem removeVersion_keeps_iff {dir : ManagedDir} {version : JsString} :
    (∀ v ∈ dir.versions, v ∈ (dir.removeVersion version).versions) ↔ version ∉ dir.versions := by
  constructor
  · exact fun h hversion => (mem_removeVersion.mp (h version hversion)).2 rfl
  · rintro hversion v hv
    exact mem_removeVersion.mpr ⟨hv, fun heq => hversion (heq ▸ hv)⟩

theorem unpack_keeps_iff {dir : ManagedDir} {version : JsString} {compactc : Bool} :
    (∀ v ∈ dir.versions, v ∈ (dir.unpack version compactc).versions) ↔
      (version ∈ dir.versions → compactc = true) := by
  constructor
  · intro h hversion
    obtain ⟨-, hne⟩ | ⟨-, hcompactc⟩ := mem_unpack.mp (h version hversion)
    · exact absurd rfl hne
    · exact hcompactc
  · intro h v hv
    refine mem_unpack.mpr ?_
    by_cases hversion : v = version
    · exact .inr ⟨hversion, h (hversion ▸ hv)⟩
    · exact .inl ⟨hv, hversion⟩

/-- A fetch keeps what is installed, unless it is forced and ends without a compiler in the place of
one. -/
theorem fetch_keeps_iff {version : JsString} {force : Bool} {download : Download} :
    (∀ v ∈ managed.elim [] ManagedDir.versions,
        v ∈ (fetchCompact managed version force download).elim [] ManagedDir.versions) ↔
      (version ∈ managed.elim [] ManagedDir.versions → force = true → download.keeps = true) := by
  cases managed with
  | none =>
    refine iff_of_true (fun v hv => ?_) fun hversion => ?_
    · exact absurd hv List.not_mem_nil
    · exact absurd hversion List.not_mem_nil
  | some dir =>
    change (∀ v ∈ dir.versions, _) ↔ (version ∈ dir.versions → _)
    unfold fetchCompact
    split
    · rename_i hskip
      have hforce : force = false := by
        simpa using (Bool.and_eq_true_iff.mp hskip).1
      exact iff_of_true (fun v hv => hv) fun _ h => absurd (hforce.symm.trans h) Bool.false_ne_true
    · rename_i hskip
      -- What is installed is fetched again only if that is forced.
      have hforced : version ∈ dir.versions → force = true := by
        intro hversion
        have hexists : dir.versionExists version = true := (List.mem_filter.mp hversion).2
        simpa [shouldSkipDownload, hexists] using hskip
      match download with
      | .failed => exact iff_of_true (fun v hv => hv) fun _ _ => rfl
      | .removed =>
        refine removeVersion_keeps_iff.trans ⟨fun h hversion => absurd hversion h, ?_⟩
        exact fun h hversion => Bool.false_ne_true (h hversion (hforced hversion))
      | .unzipped compactc =>
        refine unpack_keeps_iff.trans ⟨fun h hversion _ => h hversion, ?_⟩
        exact fun h hversion => h hversion (hforced hversion)

/-! ## Runs -/

/-- The same directory, listed in another order. -/
def Relisted (managed managed' : Managed) : Prop :=
  Option.Rel (fun dir dir' => dir.dirents.Perm dir'.dirents) managed managed'

/-- What the tools do to `managed`: a count to keep is positive, and a forced fetch of an installed
version fails before it removes the version or leaves a compiler in its place. -/
inductive Steps (collator : Collator) (managed : Managed) : Managed → Prop
  | fetch (version : JsString) (force : Bool) {download : Download}
      (keeps : version ∈ managed.elim [] ManagedDir.versions → force = true →
        download.keeps = true) :
      Steps collator managed (fetchCompact managed version force download)
  | cleanup {keepCount : ℕ} (positive : 0 < keepCount) :
      Steps collator managed (cleanupOldVersions collator managed keepCount)
  | relist {managed' : Managed} (relisted : Relisted managed managed') :
      Steps collator managed managed'

/-- A run that starts without a directory, with all versions that have been installed on the way. -/
inductive Run (collator : Collator) : Managed → List JsString → Prop
  | start : Run collator none []
  | step {managed managed' : Managed} {seen : List JsString} (run : Run collator managed seen)
      (step : Steps collator managed managed') :
      Run collator managed' (listVersions collator managed' ++ seen)

variable (collator) in
/-- Every version of the list is at most one that is installed. -/
def Covers (managed : Managed) (seen : List JsString) : Prop :=
  ∀ w ∈ seen, ∃ v ∈ managed.elim [] ManagedDir.versions, collator.localeCompare w v ≤ 0

theorem Covers.of_subset {seen : List JsString} (h : Covers collator managed seen)
    (hsub : ∀ v ∈ managed.elim [] ManagedDir.versions, v ∈ managed'.elim [] ManagedDir.versions) :
    Covers collator managed' seen := by
  intro w hw
  obtain ⟨v, hv, hle⟩ := h w hw
  exact ⟨v, hsub v hv, hle⟩

theorem Covers.cleanup {seen : List JsString} (h : Covers collator managed seen) {keepCount : ℕ}
    (hkeep : 0 < keepCount) :
    Covers collator (cleanupOldVersions collator managed keepCount) seen := by
  intro w hw
  obtain ⟨v, hv, hle⟩ := h w hw
  cases managed with
  | none => cases hv
  | some dir =>
    have hlength : 0 < dir.versions.length := List.length_pos_of_mem hv
    obtain ⟨u, hu, hbounds⟩ := TotalPreorder.exists_bound_mem_drop (p := collator.order)
      (Nat.sub_lt hlength hkeep)
    rw [← TotalPreorder.length_sort (p := collator.order)] at hu
    refine ⟨u, mem_listVersions.mp ((listVersions_cleanup (some dir) hkeep).mem_iff.mpr hu), ?_⟩
    exact collator.trans w v u hle (of_decide_eq_true (hbounds v hv))

theorem Covers.step {seen : List JsString} (h : Covers collator managed seen)
    (step : Steps collator managed managed') : Covers collator managed' seen := by
  cases step with
  | fetch version force keeps => exact h.of_subset (fetch_keeps_iff.mpr keeps)
  | cleanup positive => exact h.cleanup positive
  | relist relisted =>
    refine h.of_subset fun v hv => ?_
    cases relisted with
    | none => exact hv
    | some hperm =>
      obtain ⟨dirent, hmem, hdirent⟩ := ManagedDir.mem_versions.mp hv
      exact ManagedDir.mem_versions.mpr ⟨dirent, hperm.mem_iff.mp hmem, hdirent⟩

theorem covers_of_run {seen : List JsString} (run : Run collator managed seen) :
    Covers collator managed seen := by
  induction run with
  | start => exact fun _ hw => absurd hw List.not_mem_nil
  | step _ step ih =>
    intro w hw
    obtain hw | hw := List.mem_append.mp hw
    · have hle := of_decide_eq_true (TotalPreorder.le_refl (p := collator.order) w)
      exact ⟨w, mem_listVersions.mp hw, hle⟩
    · exact ih.step step w hw

theorem seen_of_run {seen : List JsString} (run : Run collator managed seen) :
    ∀ v ∈ managed.elim [] ManagedDir.versions, v ∈ seen := by
  cases run with
  | start => exact fun _ hv => hv
  | step _ _ => exact fun v hv => List.mem_append_left _ (mem_listVersions.mpr hv)

/-- However versions are fetched and cleaned up, once one has been installed the compiler is found,
and it is of a version that has been installed and is no earlier than any that ever was. -/
theorem latest_never_lost {seen : List JsString} (packageDir : JsString)
    (run : Run collator managed seen) (hseen : seen ≠ []) :
    ∃ v ∈ seen, (∀ w ∈ seen, collator.localeCompare w v ≤ 0) ∧
      resolveCompactPath collator none packageDir managed none =
        .ok (getVersionDir packageDir v) := by
  obtain ⟨w, hw⟩ := List.exists_mem_of_ne_nil seen hseen
  obtain ⟨v, hv, -⟩ := covers_of_run run w hw
  obtain ⟨latest, hlatest⟩ :=
    TotalPreorder.exists_latest (p := collator.order) (List.ne_nil_of_mem hv)
  refine ⟨latest, seen_of_run run latest (TotalPreorder.latest_mem hlatest), fun w hw => ?_,
    resolve_latest.mpr hlatest⟩
  obtain ⟨v, hv, hle⟩ := covers_of_run run w hw
  exact collator.trans w v latest hle (of_decide_eq_true (TotalPreorder.bounds_latest hlatest v hv))

end

namespace Sample

def byLength : Collator where
  localeCompare a b := a.length - b.length
  swap a b := by omega
  trans a b c := by omega

def twoVersions : ManagedDir := ⟨[⟨js "0.10", true, true⟩, ⟨js "0.9", true, true⟩], by decide⟩

theorem cleanup_keeps_latest_two :
    (listVersions byLength (cleanupOldVersions byLength (some twoVersions) 1)).Perm
      ((listVersions byLength (some twoVersions)).drop
        ((listVersions byLength (some twoVersions)).length - 1)) :=
  (cleanup_keeps_latest byLength (js "/compact") (some twoVersions) (by decide)).1

def fetched : Managed := fetchCompact none (js "0.9") false (.unzipped true)

theorem run_fetched : Run byLength fetched (listVersions byLength fetched ++ []) :=
  .step .start (.fetch (js "0.9") false nofun)

theorem latest_never_lost_fetched : ∃ v ∈ listVersions byLength fetched ++ [],
    (∀ w ∈ listVersions byLength fetched ++ [], byLength.localeCompare w v ≤ 0) ∧
      resolveCompactPath byLength none (js "/compact") fetched none =
        .ok (getVersionDir (js "/compact") v) := by
  have hinstalled : js "0.9" ∈ listVersions byLength fetched :=
    mem_listVersions.mpr (ManagedDir.mem_versions.mpr
      ⟨⟨js "0.9", true, true⟩, List.mem_singleton.mpr rfl, rfl, rfl, rfl⟩)
  exact latest_never_lost (js "/compact") run_fetched
    (List.ne_nil_of_mem (List.mem_append_left _ hinstalled))

end Sample

end MidnightJs.Compact
