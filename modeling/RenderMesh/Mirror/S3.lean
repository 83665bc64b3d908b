import Mathlib.Algebra.Group.Int.Defs
import RenderMesh.Core.Loop
import RenderMesh.Core.Paging
import RenderMesh.Dto

/-!
# S3 storage

The listing of a bucket (`S3StorageRepository::list_objects`,
`src/src/repositories/s3_storage.rs`): one `ListObjectsV2` call for each page, with the
continuation token of the page before, until a page is not truncated.

A provider that answers by the continuation token is `s3Step`; its state counts the calls. The
tokens it hands out are `nextToken`, and `listObjects_run` follows the loop along them.
-/
namespace RenderMesh.Mirror

open RenderMesh.Core

/-- An object of a page; `size` is an `i64`. -/
structure S3Object where
  key : Option Str
  eTag : Option Str
  lastModified : Option Str
  size : Option Int

structure ListObjectsV2Output where
  contents : List S3Object
  isTruncated : Option Bool
  nextContinuationToken : Option Str

inductive S3Op where
  | listObjectsV2 (bucket : Str) (continuationToken : Option Str)

abbrev S3Op.Res : S3Op → Type
  | .listObjectsV2 _ _ => Except Error ListObjectsV2Output

/-- `as u64` -/
def asU64 (n : Int) : Nat := (n % 2 ^ 64).toNat

/-- What is collected of an object; one without a key is passed over. -/
def objectSummary (object : S3Object) : Option RemoteObjectSummary :=
  object.key.map fun key =>
    { key := key
      createdAt := none
      etag := object.eTag
      lastModified := object.lastModified
      size := asU64 (object.size.getD 0)
      contentType := none
      cacheControl := none }

structure S3StorageRepository where
  bucket : Str

namespace S3StorageRepository

variable (self : S3StorageRepository)

/-- The variables of the loop of `list_objects`. -/
structure Listing where
  output : List RemoteObjectSummary
  continuationToken : Option Str

/-- A turn of the loop of `list_objects`; mirrors src/src/repositories/s3_storage.rs:186-218 -/
def listObjectsPage (l : Listing) :
    Prog S3Op S3Op.Res Error (Listing ⊕ List RemoteObjectSummary) := do
  let response ← Prog.perform (.listObjectsV2 self.bucket l.continuationToken)
  match response with
  | .error e => .fail e
  | .ok response =>
    let output := l.output ++ response.contents.filterMap objectSummary
    if response.isTruncated.getD false then
      match response.nextContinuationToken with
      | some token => pure (.inl ⟨output, some token⟩)
      | none => .fail (anyhow
        "S3 list_objects_v2 response was truncated without next_continuation_token".toList)
    else pure (.inr output)

/-- mirrors src/src/repositories/s3_storage.rs:182-222; `none` when the loop was not over after
`turns` pages. -/
def listObjects (turns : Nat) : Prog S3Op S3Op.Res Error (Option (List RemoteObjectSummary)) :=
  Prog.iterate self.listObjectsPage turns ⟨[], none⟩

end S3StorageRepository

/-- A provider whose answer depends on the continuation token. -/
abbrev S3Provider := Option Str → Except Error ListObjectsV2Output

def s3Step (provider : S3Provider) : Handler S3Op S3Op.Res Nat
  | .listObjectsV2 _ token, calls => (some (provider token), calls + 1)

/-- The token that a page hands out for the page after it. -/
def nextToken (provider : S3Provider) (token : Option Str) : Option Str :=
  match provider token with
  | .ok response => if response.isTruncated.getD false then response.nextContinuationToken else none
  | .error _ => none

/-- What the loop collects of a page. -/
def pageContents (provider : S3Provider) (token : Option Str) : List RemoteObjectSummary :=
  match provider token with
  | .ok response => response.contents.filterMap objectSummary
  | .error _ => []

namespace S3StorageRepository

variable {self : S3StorageRepository} {provider : S3Provider}

/-- The loop's variables before the `i`-th page. -/
def listing (provider : S3Provider) (i : Nat) : Listing where
  output := (List.range i).flatMap fun j => pageContents provider (pageKey (nextToken provider) j)
  continuationToken := pageKey (nextToken provider) i

/-- A turn ends with the token it goes on with, or ends the listing. -/
theorem listObjectsPage_run (l : Listing) (calls : Nat) :
    ∃ out, run (s3Step provider) (self.listObjectsPage l) calls = (out, calls + 1) ∧
      match nextToken provider l.continuationToken with
      | some token =>
        out = .ok (.inl ⟨l.output ++ pageContents provider l.continuationToken, some token⟩)
      | none =>
        (∃ response, provider l.continuationToken = .ok response ∧
          out = .ok (.inr (l.output ++ pageContents provider l.continuationToken))) ∨
        ∃ e, out = .err e := by
  rw [listObjectsPage, run_bind, run_perform, nextToken, pageContents]
  simp only [s3Step]
  cases provider l.continuationToken with
  | error e => exact ⟨_, rfl, Or.inr ⟨e, rfl⟩⟩
  | ok response =>
    simp only
    by_cases htruncated : response.isTruncated.getD false = true
    · simp only [htruncated, if_true]
      cases response.nextContinuationToken with
      | some token => exact ⟨_, rfl, rfl⟩
      | none => exact ⟨_, rfl, Or.inr ⟨_, rfl⟩⟩
    · simp only [htruncated]
      exact ⟨_, rfl, Or.inl ⟨response, rfl, rfl⟩⟩

theorem nextToken_listing {i : Nat} (hsome : ∀ j < i, markers (nextToken provider) j ≠ none) :
    nextToken provider (listing provider i).continuationToken = markers (nextToken provider) i :=
  (markers_eq i hsome).symm

/-- A page that hands out a token is followed by the next. -/
theorem listObjectsPage_turn {i : Nat} (hsome : ∀ j ≤ i, markers (nextToken provider) j ≠ none)
    (calls : Nat) :
    run (s3Step provider) (self.listObjectsPage (listing provider i)) calls =
      (.ok (.inl (listing provider (i + 1))), calls + 1) := by
  obtain ⟨out, hrun, hout⟩ := @listObjectsPage_run self provider (listing provider i) calls
  rw [nextToken_listing fun j hj => hsome j (by omega)] at hout
  obtain ⟨m, hm⟩ := Option.ne_none_iff_exists'.mp (hsome i (Nat.le_refl i))
  rw [hm] at hout
  rw [hrun, hout, listing, listing, List.range_succ, List.flatMap_append, List.flatMap_singleton, pageKey, hm]

/-- As long as pages hand out tokens the loop goes on. -/
theorem listObjects_goes_on {n : Nat} (hsome : ∀ j < n, markers (nextToken provider) j ≠ none)
    (turns calls : Nat) :
    run (s3Step provider) (self.listObjects (n + turns)) calls =
      run (s3Step provider) (Prog.iterate self.listObjectsPage turns (listing provider n)) (calls + n) :=
  run_iterate_turns (listing provider) (fun i => calls + i)
    (fun i hi => listObjectsPage_turn (fun j hj => hsome j (by omega)) (calls + i)) turns

/-- A chain of tokens that comes back is followed without end. -/
theorem listObjects_endless (h : Revisits (nextToken provider)) (turns calls : Nat) :
    run (s3Step provider) (self.listObjects turns) calls = (.ok none, calls + turns) :=
  listObjects_goes_on (fun j _ => h.no_end j) 0 calls

/-- A chain that ends is followed to its end: there the listing has every page, or an error. -/
theorem listObjects_ends {n : Nat} (hend : markers (nextToken provider) n = none)
    (hsome : ∀ j < n, markers (nextToken provider) j ≠ none) {turns : Nat} (hturns : n < turns)
    (calls : Nat) :
    ∃ out, run (s3Step provider) (self.listObjects turns) calls = (out, calls + (n + 1)) ∧
      (out = .ok (some ((List.range (n + 1)).flatMap fun i =>
          pageContents provider (pageKey (nextToken provider) i))) ∧
        (∃ response, provider (pageKey (nextToken provider) n) = .ok response) ∨
        ∃ e, out = .err e) := by
  obtain ⟨m, rfl⟩ := Nat.exists_eq_add_of_lt hturns
  obtain ⟨out, hrun, hout⟩ := @listObjectsPage_run self provider (listing provider n) (calls + n)
  rw [nextToken_listing hsome, hend] at hout
  rw [Nat.add_assoc, listObjects_goes_on hsome, run_iterate_succ, hrun]
  rcases hout with ⟨response, hresponse, rfl⟩ | ⟨e, rfl⟩
  · refine ⟨_, rfl, Or.inl ⟨?_, response, hresponse⟩⟩
    rw [List.range_succ, List.flatMap_append, List.flatMap_singleton]
    rfl
  · exact ⟨_, rfl, Or.inr ⟨e, rfl⟩⟩

end S3StorageRepository

end RenderMesh.Mirror
