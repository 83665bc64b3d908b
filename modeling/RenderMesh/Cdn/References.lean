import RenderMesh.Core.Framing
import RenderMesh.Core.Percent
import RenderMesh.Cdn.Invalidation
import RenderMesh.Refresh.Snapshot

/-!
# Invalidation references

CloudFront takes two invalidations with one caller reference for the same invalidation. A
reference is a digest of what the invalidation is for, and what is digested is framed: each text
comes after its length, the paths after their number. So nothing but a collision of the digest
gives two invalidations one reference (`invalidationCallerReference_injective`).
-/
namespace RenderMesh.Cdn

open RenderMesh.Core RenderMesh.Mirror RenderMesh.Refresh

/-- What a reference is for. -/
structure InvalidationKey where
  namespace_ : Bytes
  originId : Str
  generation : Nat
  tenantId : Str
  paths : List Str
  deriving DecidableEq

namespace InvalidationKey

/-- What is digested. -/
def bytes (key : InvalidationKey) : Bytes :=
  hashComponent key.namespace_ ++ hashComponent (utf8 key.originId) ++ toBeBytes key.generation ++
    hashComponent (utf8 key.tenantId) ++ toBeBytes key.paths.length ++
    key.paths.flatMap fun path => hashComponent (utf8 path)

def reference (deps : Deps) (key : InvalidationKey) : Str :=
  invalidationCallerReference deps key.namespace_ key.originId key.generation key.tenantId key.paths

/-- A uuid, a `u64` and texts in memory. -/
structure Fits (key : InvalidationKey) : Prop where
  namespace_ : key.namespace_.length = 16
  originId : (utf8 key.originId).length < 2 ^ 64
  generation : key.generation < 2 ^ 64
  tenantId : (utf8 key.tenantId).length < 2 ^ 64
  count : key.paths.length < 2 ^ 64
  paths : ∀ path ∈ key.paths, (utf8 path).length < 2 ^ 64

theorem reference_eq (deps : Deps) (key : InvalidationKey) :
    key.reference deps = "rendermesh-".toList ++ encodeHex (deps.sha256 key.bytes).bytes := rfl

end InvalidationKey

/-! ## The encoding -/

theorem length_toBeBytes (n : Nat) : (toBeBytes n).length = 8 := by
  simp [toBeBytes]

/-- Numbers with the same last digits -/
theorem mod_pow_eq_of_digits {m n b : Nat} (k : Nat)
    (h : ∀ i < k, m / b ^ i % b = n / b ^ i % b) : m % b ^ k = n % b ^ k := by
  induction k with
  | zero => rw [Nat.pow_zero, Nat.mod_one, Nat.mod_one]
  | succ k ih =>
    have hlow := ih fun i hi => h i (Nat.lt_succ_of_lt hi)
    rw [Nat.mod_pow_succ, Nat.mod_pow_succ, hlow, h k (Nat.lt_succ_self k)]

theorem toBeBytes_injective {m n : Nat} (hm : m < 2 ^ 64) (hn : n < 2 ^ 64)
    (h : toBeBytes m = toBeBytes n) : m = n := by
  have hdigit (i : Nat) (hi : i < 8) : m / 256 ^ i % 256 = n / 256 ^ i % 256 := by
    have hget := congrArg (·[7 - i]?) h
    have hlt : 7 - i < 8 := by omega
    have hback : 7 - (7 - i) = i := by omega
    simp only [toBeBytes, List.getElem?_map, List.getElem?_range hlt, Option.map_some, hback,
      Option.some.injEq] at hget
    simpa using congrArg UInt8.toNat hget
  have hmod := mod_pow_eq_of_digits 8 hdigit
  have hbound : 2 ^ 64 = 256 ^ 8 := by decide
  rwa [Nat.mod_eq_of_lt (hbound ▸ hm), Nat.mod_eq_of_lt (hbound ▸ hn)] at hmod

theorem framed_toBeBytes : Framed {n | n < 2 ^ 64} toBeBytes :=
  framed_of_length (fun n _ => length_toBeBytes n) fun _ hm _ hn h => toBeBytes_injective hm hn h

theorem framed_hashComponent : Framed {value | value.length < 2 ^ 64} hashComponent :=
  framed_lengthPrefix framed_toBeBytes

theorem framed_text : Framed {text | (utf8 text).length < 2 ^ 64} fun text => hashComponent (utf8 text) :=
  framed_hashComponent.comp (fun _ _ _ _ h => utf8_injective h) fun _ h => h

/-- What is digested determines what the reference is for. -/
theorem InvalidationKey.bytes_injOn : Set.InjOn InvalidationKey.bytes {key | key.Fits} := by
  rintro ⟨ns, origin, generation, tenant, paths⟩ ha ⟨ns', origin', generation', tenant', paths'⟩ hb h
  have hns : ns.length < 2 ^ 64 := by
    rw [ha.namespace_]
    decide
  have hns' : ns'.length < 2 ^ 64 := by
    rw [hb.namespace_]
    decide
  simp only [InvalidationKey.bytes, List.append_assoc] at h
  obtain ⟨hnamespace, h1⟩ := framed_hashComponent ns hns ns' hns' _ _ h
  obtain ⟨horigin, h2⟩ := framed_text origin ha.originId origin' hb.originId _ _ h1
  obtain ⟨hgeneration, h3⟩ := framed_toBeBytes generation ha.generation generation' hb.generation _ _ h2
  obtain ⟨htenant, h4⟩ := framed_text tenant ha.tenantId tenant' hb.tenantId _ _ h3
  have hpaths : paths = paths' := (framed_counted framed_toBeBytes framed_text).injOn
    ⟨ha.count, ha.paths⟩ ⟨hb.count, hb.paths⟩ h4
  rw [hnamespace, horigin, hgeneration, htenant, hpaths]

theorem InvalidationKey.reference_eq_iff {deps : Deps} {requested : Set InvalidationKey}
    (hfits : ∀ key ∈ requested, key.Fits)
    (hcollision : Set.InjOn deps.sha256 (InvalidationKey.bytes '' requested))
    {a b : InvalidationKey} (ha : a ∈ requested) (hb : b ∈ requested) :
    a.reference deps = b.reference deps ↔ a = b := by
  constructor
  · intro h
    rw [reference_eq, reference_eq] at h
    have hhex := encodeHex_injective (List.append_cancel_left h)
    have hdigest : deps.sha256 a.bytes = deps.sha256 b.bytes := by
      rw [Digest.mk.injEq]
      exact hhex
    have hbytes := hcollision ⟨a, ha, rfl⟩ ⟨b, hb, rfl⟩ hdigest
    exact bytes_injOn (hfits a ha) (hfits b hb) hbytes
  · rintro rfl
    rfl

/-! ## The purges of a process -/

section
variable (deps : Deps) (self : CloudFrontSaasCdnRepository) (request : CdnPurgeRequest)

/-- What an invalidation of a purge is for. -/
def keyOf (invalidation : TenantInvalidationRequest) : InvalidationKey where
  namespace_ := self.callerReferenceNamespace
  originId := request.originId
  generation := request.generation
  tenantId := invalidation.tenantId
  paths := invalidation.paths

/-- A call that creates an invalidation gives it the reference of what it is for. -/
def Refers (o : SaasOp) : Prop :=
  ∀ invalidation, o = .createInvalidation invalidation →
    invalidation.callerReference = (keyOf self request invalidation).reference deps

theorem uses_clientTry {ε : Type} {P : SaasOp → Prop} {o : SaasOp} {f : Error → ε} (ho : P o) :
    (clientTry o f).Uses P := by
  refine Prog.uses_bind ((Prog.uses_perform P o).mpr ho) fun r => ?_
  cases r <;> trivial

theorem listPage_refers (p : CloudFrontSaasCdnRepository.Pagination) : (self.listPage p).Uses (Refers deps self request) := by
  refine Prog.uses_bind (uses_clientTry fun _ h => by cases h) fun page => ?_
  split
  · trivial
  · split <;> trivial

theorem invalidateTenants_refers (paths : List Str) (tenants : List DistributionTenant) :
    (self.invalidateTenants deps request paths tenants).Uses (Refers deps self request) := by
  unfold CloudFrontSaasCdnRepository.invalidateTenants
  dsimp only
  split
  · trivial
  · refine Prog.uses_bind (Prog.uses_fold (fun ids tenant _ => ?_) []) fun ids => trivial
    refine Prog.uses_bind (uses_clientTry ?_) fun id => trivial
    rintro _ ⟨⟩
    rfl

theorem purge_refers (turns : Nat) : (self.purge deps turns request).Uses (Refers deps self request) := by
  refine Prog.uses_bind (Prog.uses_ofExcept _ _) fun paths => ?_
  refine Prog.uses_bind (Prog.uses_iterate (listPage_refers deps self request) turns _) fun tenants => ?_
  cases tenants with
  | none => trivial
  | some tenants =>
    exact Prog.uses_bind (invalidateTenants_refers deps self request paths tenants) fun _ => trivial

theorem submitted_refers {env : SaasEnv} {turns : Nat} {c : Cloud} {invalidation : TenantInvalidationRequest}
    (h : invalidation ∈ submitted env (self.purge deps turns request) c) :
    invalidation.callerReference = (keyOf self request invalidation).reference deps := by
  obtain ⟨⟨o, c'⟩, hmem, hof⟩ := List.mem_filterMap.mp h
  have hrefers := mem_trace_of_uses (purge_refers deps self request turns) c _ hmem
  cases o with
  | createInvalidation r =>
    obtain rfl := Option.some.inj hof
    exact hrefers r rfl
  | _ => cases hof

end

/-- What is digested is injective; so where the digest has no collision, references are equal
exactly if what they are for is, and so are those of any two invalidations that purges submit. -/
theorem invalidationCallerReference_injective :
    Set.InjOn InvalidationKey.bytes {key | key.Fits} ∧
    ∀ (deps : Deps) (requested : Set InvalidationKey), (∀ key ∈ requested, key.Fits) →
      Set.InjOn deps.sha256 (InvalidationKey.bytes '' requested) →
      (∀ a ∈ requested, ∀ b ∈ requested, a.reference deps = b.reference deps ↔ a = b) ∧
      ∀ (self self' : CloudFrontSaasCdnRepository) (request request' : CdnPurgeRequest) (turns turns' : Nat)
        (env env' : SaasEnv) (c c' : Cloud),
        ∀ invalidation ∈ submitted env (self.purge deps turns request) c,
        ∀ invalidation' ∈ submitted env' (self'.purge deps turns' request') c',
          keyOf self request invalidation ∈ requested → keyOf self' request' invalidation' ∈ requested →
          (invalidation.callerReference = invalidation'.callerReference ↔
            keyOf self request invalidation = keyOf self' request' invalidation') := by
  refine ⟨InvalidationKey.bytes_injOn, fun deps requested hfits hcollision => ⟨?_, ?_⟩⟩
  · intro a ha b hb
    exact InvalidationKey.reference_eq_iff hfits hcollision ha hb
  · intro self self' request request' turns turns' env env' c c' invalidation h invalidation' h' hkey hkey'
    rw [submitted_refers deps self request h, submitted_refers deps self' request' h']
    exact InvalidationKey.reference_eq_iff hfits hcollision hkey hkey'

/-- An invalidation of these paths for one tenant. -/
def webKey (paths : List Str) : InvalidationKey where
  namespace_ := (List.range 16).map UInt8.ofNat
  originId := "web".toList
  generation := 1
  tenantId := "dt-1".toList
  paths := paths

/-- SHA-256 of what two of these invalidations are for. -/
def webDeps : Deps :=
  { smallDeps with
    sha256 := fun b =>
      if b = (webKey ["/a".toList]).bytes then
        digestOf (unhex "2aa9c30567b3295f76ffd3ae8b30deba645dd2b0751c4e8dc219e7190f2c8f85".toList)
      else if b = (webKey ["/a".toList, "/b".toList]).bytes then
        digestOf (unhex "b0bf49e623b491798d8f1c65ec01b1f896b6e5dc1f4a623dcf590744d2acdc62".toList)
      else smallDeps.sha256 b }

theorem webKey_fits {paths : List Str} (hcount : paths.length < 2 ^ 64)
    (hpaths : ∀ path ∈ paths, (utf8 path).length < 2 ^ 64) : (webKey paths).Fits where
  namespace_ := rfl
  originId := (by decide : (utf8 "web".toList).length < 2 ^ 64)
  generation := (by decide : 1 < 2 ^ 64)
  tenantId := (by decide : (utf8 "dt-1".toList).length < 2 ^ 64)
  count := hcount
  paths := hpaths

theorem webDeps_injOn : Set.InjOn webDeps.sha256
    (InvalidationKey.bytes '' {webKey ["/a".toList], webKey ["/a".toList, "/b".toList]}) := by
  have hne : webDeps.sha256 (webKey ["/a".toList]).bytes ≠
      webDeps.sha256 (webKey ["/a".toList, "/b".toList]).bytes := by
    decide
  rw [Set.image_pair]
  exact (Set.injOn_pair.mpr fun h => absurd h hne)

theorem invalidationCallerReference_web :
    (webKey ["/a".toList]).reference webDeps ≠ (webKey ["/a".toList, "/b".toList]).reference webDeps := by
  have hfits : ∀ key ∈ ({webKey ["/a".toList], webKey ["/a".toList, "/b".toList]} : Set InvalidationKey),
      key.Fits := by
    rintro key (rfl | rfl)
    · exact webKey_fits (by decide) (by decide)
    · exact webKey_fits (by decide) (by decide)
  intro h
  have heq := (invalidationCallerReference_injective.2 webDeps _ hfits webDeps_injOn).1 _ (Or.inl rfl) _
    (Or.inr rfl) |>.mp h
  exact absurd heq (by decide)

end RenderMesh.Cdn
