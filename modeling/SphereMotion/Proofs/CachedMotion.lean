import Mathlib
import SphereMotion.Proofs.Pointwise

namespace SphereMotion

namespace Memo

variable {κ β : Type} {compute : κ → Option β} {same : κ → κ → Bool}

theorem key?_refresh {key : κ} {value : β} {next : Memo compute}
    (computed : refresh compute key = some (value, next)) : next.key? = some key := by
  unfold refresh at computed
  split at computed
  · cases computed
    rfl
  · cases computed

theorem key?_fetch (sound : ∀ k l, same k l = true → k = l) {memo next : Memo compute} {key : κ} {value : β}
    (fetched : memo.fetch same key = some (value, next)) : next.key? = some key := by
  unfold fetch at fetched
  split at fetched
  next e held =>
    split at fetched
    next alike =>
      cases fetched
      rw [key?, held, ← sound _ _ alike]
      rfl
    next => exact key?_refresh fetched
  next => exact key?_refresh fetched

/-- A fetch gives the value of the key and leaves the memo with that key. -/
theorem fetch_of_some (sound : ∀ k l, same k l = true → k = l) (memo : Memo compute) (key : κ) {value : β}
    (computed : compute key = some value) :
    ∃ next, memo.fetch same key = some (value, next) ∧ next.key? = some key := by
  have answer := memo.fetch_value sound key
  rw [computed] at answer
  obtain ⟨⟨_, next⟩, fetched, rfl⟩ := Option.map_eq_some_iff.mp answer
  exact ⟨next, fetched, key?_fetch sound fetched⟩

theorem fetch_of_none (sound : ∀ k l, same k l = true → k = l) (memo : Memo compute) {key : κ}
    (missing : compute key = none) : memo.fetch same key = none := by
  have answer := memo.fetch_value sound key
  rwa [missing, Option.map_eq_none_iff] at answer

end Memo

theorem Grid.window?_of_fits {β : Type} {g : Grid β} {w : Window} (fits : w.Fits g.rows g.cols) :
    g.window? w = some (g.window w fits) := dif_pos fits

variable {α : Type} [Scalar α]

/-- A request to move the block in a window of a picture. -/
structure BlockCall (α : Type) where
  window : Window
  samples : Grid (Vec2 α)
  motion : Vec2 α
  center : Vec2 α

section Plane

/-- The cache without the block of its last call. -/
def PlaneCache.forget (cache : PlaneCache α) : PlaneCache α := { cache with block := .empty }

omit [Scalar α] in
theorem PlaneCache.forget_eq {cache next : PlaneCache α} (kept : next.picture = cache.picture) :
    next.forget = cache.forget := by
  obtain ⟨picture, block⟩ := next
  cases kept
  rfl

omit [Scalar α] in
theorem PlaneCache.fetch_of_inside {cache : PlaneCache α} {w : Window} {points : Grid (PlanePoint α)}
    (inside : cache.picture.window? w = some points) :
    ∃ next, cache.fetch w = .ok (points, next) ∧ next.picture = cache.picture ∧ next.block.key? = some w := by
  obtain ⟨block, fetched, key⟩ := cache.block.fetch_of_some (fun _ _ => eq_of_beq) w inside
  exact ⟨{ cache with block }, by rw [fetch, fetched], rfl, key⟩

omit [Scalar α] in
theorem PlaneCache.fetch_of_outside {cache : PlaneCache α} {w : Window} (outside : cache.picture.window? w = none) :
    cache.fetch w = .error .windowOutsideGrid := by
  rw [fetch, cache.block.fetch_of_none (fun _ _ => eq_of_beq) outside]

/-- A cache that was filled from a picture moves a block of it as the model does. -/
theorem PlaneMotion.moveCached_of_inside {m : PlaneMotion α} {cache : PlaneCache α}
    {picture samples : Grid (Vec2 α)} {w : Window}
    (filled : cache.picture = m.toPlane (m.projection.unprojectGrid picture))
    (inside : picture.window? w = some samples) (motion : Vec2 α) :
    ∃ next, m.moveCached cache w samples motion = .ok (m.move samples motion, next) ∧
      if motion.isZero then next = cache else next.block.key? = some w := by
  by_cases still : motion.isZero = true
  · refine ⟨cache, ?_, by rw [if_pos still]⟩
    rw [moveCached, move, if_pos still, if_pos still]
  · -- All stages up to the plane act entry by entry, so they may be cut to the window before or after.
    have points : cache.picture.window? w = some (m.toPlane (m.projection.unprojectGrid samples)) := by
      rw [filled, m.pointwise_toPlane.pointByPoint.window?,
        m.projection.pointwise_unprojectGrid.pointByPoint.window?, inside, Option.map_some, Option.map_some]
    obtain ⟨next, fetched, -, key⟩ := PlaneCache.fetch_of_inside points
    refine ⟨next, ?_, by rwa [if_neg still]⟩
    rw [moveCached, move, if_neg still, if_neg still, fetched]
    rfl

theorem PlaneMotion.picture_moveCached {m : PlaneMotion α} {cache next : PlaneCache α} {w : Window}
    {samples moved : Grid (Vec2 α)} {motion : Vec2 α}
    (answered : m.moveCached cache w samples motion = .ok (moved, next)) : next.picture = cache.picture := by
  unfold moveCached at answered
  split at answered
  · cases answered
    rfl
  · cases inside : cache.picture.window? w with
    | none =>
      rw [PlaneCache.fetch_of_outside inside] at answered
      cases answered
    | some points =>
      obtain ⟨reached, fetched, picture, -⟩ := PlaneCache.fetch_of_inside inside
      rw [fetched] at answered
      cases answered
      exact picture

/-- The cache that a call leaves. A call that fails, for a window outside the picture, leaves no block in it. -/
def PlaneCache.after (m : PlaneMotion α) (cache : PlaneCache α) (call : BlockCall α) : PlaneCache α :=
  match m.moveCached cache call.window call.samples call.motion with
  | .ok (_, next) => next
  | .error _ => cache.forget

theorem PlaneCache.picture_after (m : PlaneMotion α) (cache : PlaneCache α) (call : BlockCall α) :
    (cache.after m call).picture = cache.picture := by
  unfold after
  split
  next answered => exact PlaneMotion.picture_moveCached answered
  next => rfl

theorem PlaneCache.picture_run (m : PlaneMotion α) (cache : PlaneCache α) (calls : List (BlockCall α)) :
    (calls.foldl (after m) cache).picture = cache.picture := by
  induction calls generalizing cache with
  | nil => rfl
  | cons call rest ih => rw [List.foldl_cons, ih, picture_after]

end Plane

section Geodesic

def GeodesicCache.forget (cache : GeodesicCache α) : GeodesicCache α := { cache with block := .empty }

theorem GeodesicCache.forget_eq {cache next : GeodesicCache α} (kept : next.picture = cache.picture) :
    next.forget = cache.forget := by
  obtain ⟨picture, block⟩ := next
  cases kept
  rfl

theorem EpipoleFrame.eq_ofEpipole (f : EpipoleFrame α) : f = .ofEpipole f.epipole := by
  obtain ⟨epipole, rotation, rfl⟩ := f
  rfl

/-- A frame that is kept for an epipole written alike is the frame of that epipole. -/
theorem EpipoleFrame.set_eq [LawfulSame α] (f : EpipoleFrame α) (epipole : Vec3 α) :
    (f.set epipole).1 = .ofEpipole epipole := by
  unfold set
  split
  next alike => rw [← Vec3.eq_of_same alike, ← f.eq_ofEpipole]
  next => rfl

theorem Geodesic.setEpipole_eq [LawfulSame α] (m : Geodesic α) (epipole : Vec3 α) :
    m.setEpipole epipole = .build m.projection m.flavor epipole := by
  rw [setEpipole, m.frame.set_eq, build]

variable [LawfulSame α]

theorem GeodesicCache.sound (k l : Window × Vec3 α) (alike : (k.1 == l.1 && k.2.same l.2) = true) : k = l := by
  rw [Bool.and_eq_true] at alike
  exact Prod.ext (eq_of_beq alike.1) (Vec3.eq_of_same alike.2)

theorem GeodesicCache.fetch_of_inside {cache : GeodesicCache α} {w : Window} {directions : Grid (Vec3 α)}
    (inside : cache.picture.window? w = some directions) (f : EpipoleFrame α) :
    ∃ next, cache.fetch w f.epipole = .ok (directions.map f.spherical, next) ∧
      next.picture = cache.picture ∧ next.block.key? = some (w, f.epipole) := by
  obtain ⟨block, fetched, key⟩ := cache.block.fetch_of_some GeodesicCache.sound (w, f.epipole)
    (by rw [inside, Option.map_some])
  exact ⟨{ cache with block }, by rw [fetch, fetched, ← f.eq_ofEpipole], rfl, key⟩

theorem GeodesicCache.fetch_of_outside {cache : GeodesicCache α} {w : Window}
    (outside : cache.picture.window? w = none) (epipole : Vec3 α) :
    cache.fetch w epipole = .error .windowOutsideGrid := by
  rw [fetch, cache.block.fetch_of_none GeodesicCache.sound (by rw [outside, Option.map_none])]

theorem Geodesic.moveCached_of_inside {m : Geodesic α} {cache : GeodesicCache α} {picture samples : Grid (Vec2 α)}
    {w : Window} (filled : cache.picture = m.projection.unprojectGrid picture)
    (inside : picture.window? w = some samples) (motion center : Vec2 α) :
    ∃ next, m.moveCached cache w samples motion center = .ok (m.move samples motion center, next) ∧
      if motion.isZero then next = cache else next.block.key? = some (w, m.frame.epipole) := by
  by_cases still : motion.isZero = true
  · refine ⟨cache, ?_, by rw [if_pos still]⟩
    rw [moveCached, move, if_pos still, if_pos still]
  · have directions : cache.picture.window? w = some (m.projection.unprojectGrid samples) := by
      rw [filled, m.projection.pointwise_unprojectGrid.pointByPoint.window?, inside, Option.map_some]
    obtain ⟨next, fetched, -, key⟩ := GeodesicCache.fetch_of_inside directions m.frame
    refine ⟨next, ?_, by rwa [if_neg still]⟩
    rw [moveCached, move, if_neg still, if_neg still, fetched]
    rfl

theorem Geodesic.picture_moveCached {m : Geodesic α} {cache next : GeodesicCache α} {w : Window}
    {samples moved : Grid (Vec2 α)} {motion center : Vec2 α}
    (answered : m.moveCached cache w samples motion center = .ok (moved, next)) : next.picture = cache.picture := by
  unfold moveCached at answered
  split at answered
  · cases answered
    rfl
  · cases inside : cache.picture.window? w with
    | none =>
      rw [GeodesicCache.fetch_of_outside inside] at answered
      cases answered
    | some directions =>
      obtain ⟨reached, fetched, picture, -⟩ := GeodesicCache.fetch_of_inside inside m.frame
      rw [fetched] at answered
      cases answered
      exact picture

def GeodesicCache.after (m : Geodesic α) (cache : GeodesicCache α) (call : BlockCall α) : GeodesicCache α :=
  match m.moveCached cache call.window call.samples call.motion call.center with
  | .ok (_, next) => next
  | .error _ => cache.forget

theorem GeodesicCache.picture_after (m : Geodesic α) (cache : GeodesicCache α) (call : BlockCall α) :
    (cache.after m call).picture = cache.picture := by
  unfold after
  split
  next answered => exact Geodesic.picture_moveCached answered
  next => rfl

/-- Geodesic models that share one cache. -/
structure GeodesicSession (ι : Type) (α : Type) [Scalar α] where
  models : ι → Geodesic α
  cache : GeodesicCache α

/-- What may happen to geodesic models that share a cache. -/
inductive GeodesicEvent (ι : Type) (α : Type) where
  | setEpipole (i : ι) (epipole : Vec3 α)
  | move (i : ι) (call : BlockCall α)

variable {ι : Type} [DecidableEq ι]

/-- The epipoles last set, from those set before. -/
def GeodesicEvent.epipoles (before : ι → Vec3 α) : GeodesicEvent ι α → ι → Vec3 α
  | setEpipole i epipole => Function.update before i epipole
  | move _ _ => before

namespace GeodesicSession

def start (projection : Projection α) (flavors : ι → GeodesicFlavor) (epipoles : ι → Vec3 α)
    (sphere : Grid (Vec3 α)) : GeodesicSession ι α :=
  ⟨fun i => .build projection (flavors i) (epipoles i), .seed sphere⟩

def step (s : GeodesicSession ι α) : GeodesicEvent ι α → GeodesicSession ι α
  | .setEpipole i epipole => { s with models := Function.update s.models i ((s.models i).setEpipole epipole) }
  | .move i call => { s with cache := s.cache.after (s.models i) call }

theorem picture_run (s : GeodesicSession ι α) (events : List (GeodesicEvent ι α)) :
    (events.foldl step s).cache.picture = s.cache.picture := by
  induction events generalizing s with
  | nil => rfl
  | cons event rest ih =>
    rw [List.foldl_cons, ih]
    cases event with
    | setEpipole i epipole => rfl
    | move i call => exact GeodesicCache.picture_after ..

theorem models_step {s : GeodesicSession ι α} {projection : Projection α} {flavors : ι → GeodesicFlavor}
    {epipoles : ι → Vec3 α} (models : ∀ i, s.models i = .build projection (flavors i) (epipoles i))
    (event : GeodesicEvent ι α) (i : ι) :
    (s.step event).models i = .build projection (flavors i) (event.epipoles epipoles i) := by
  cases event with
  | move j call => exact models i
  | setEpipole j epipole =>
    by_cases here : i = j
    · subst here
      simp only [step, GeodesicEvent.epipoles, Function.update_self, models, Geodesic.setEpipole_eq]
      rfl
    · simp only [step, GeodesicEvent.epipoles, Function.update_of_ne here, models]

/-- After any events every model is the one of its flavor for the epipole last set. -/
theorem models_run {s : GeodesicSession ι α} {projection : Projection α} {flavors : ι → GeodesicFlavor}
    {epipoles : ι → Vec3 α} (models : ∀ i, s.models i = .build projection (flavors i) (epipoles i))
    (events : List (GeodesicEvent ι α)) (i : ι) :
    (events.foldl step s).models i =
      .build projection (flavors i) (events.foldl GeodesicEvent.epipoles epipoles i) := by
  induction events generalizing s epipoles with
  | nil => exact models i
  | cons event rest ih => exact ih (models_step models event)

end GeodesicSession

end Geodesic

/-- A cache that was seeded from a picture moves each block of it as the model does without a cache, whatever
calls came before: a plane cache with the model that it was seeded with, a geodesic cache with any models over
the projection, of either flavor, and with epipoles that change between the calls. A motion leaves the cache
with the window of its block, and with the epipole if it is geodesic. A zero motion leaves the cache as it was. -/
theorem moveCached_run_eq_move [LawfulSame α] (projection : Projection α) (picture : Grid (Vec2 α)) (w : Window)
    (fits : w.Fits picture.rows picture.cols) (motion center : Vec2 α) :
    (∀ (plane : MotionPlane) (calls : List (BlockCall α)),
      let m : PlaneMotion α := ⟨projection, plane⟩
      let cache := calls.foldl (PlaneCache.after m) (.seed m (projection.unprojectGrid picture))
      ∃ next, m.moveCached cache w (picture.window w fits) motion =
          .ok (m.move (picture.window w fits) motion, next) ∧
        if motion.isZero then next = cache else next.block.key? = some w) ∧
    (∀ (ι : Type) [DecidableEq ι] (flavors : ι → GeodesicFlavor) (epipoles : ι → Vec3 α)
      (events : List (GeodesicEvent ι α)) (i : ι),
      let s := events.foldl GeodesicSession.step
        (.start projection flavors epipoles (projection.unprojectGrid picture))
      ∃ next, (s.models i).moveCached s.cache w (picture.window w fits) motion center =
          .ok ((s.models i).move (picture.window w fits) motion center, next) ∧
        if motion.isZero then next = s.cache
        else next.block.key? = some (w, events.foldl GeodesicEvent.epipoles epipoles i)) := by
  have inside := Grid.window?_of_fits fits
  constructor
  · intro plane calls m cache
    have filled : cache.picture = m.toPlane (m.projection.unprojectGrid picture) := PlaneCache.picture_run m _ calls
    exact PlaneMotion.moveCached_of_inside filled inside motion
  · intro ι _ flavors epipoles events i s
    have model : s.models i = .build projection (flavors i) (events.foldl GeodesicEvent.epipoles epipoles i) :=
      GeodesicSession.models_run (fun _ => rfl) events i
    have filled : s.cache.picture = (s.models i).projection.unprojectGrid picture := by
      rw [model]
      exact GeodesicSession.picture_run _ events
    obtain ⟨next, moved, key⟩ := Geodesic.moveCached_of_inside filled inside motion center
    refine ⟨next, moved, ?_⟩
    rw [model] at key
    exact key

/-- Two geodesic models share a cache. The epipole of one turns from zero to minus zero between its calls, that
of the other becomes undefined. -/
theorem moveCached_run_eq_move_of_signed_zero :
    let projection : Projection Double :=
      .panorama ⟨.ofBits 0x4030000000000000, .ofBits 0x4020000000000000, .ofBits 0⟩
    let picture : Grid (Vec2 Double) :=
      .lattice 2 4 .origin ⟨.ofBits 0x4010000000000000, .ofBits 0x4010000000000000⟩
    let w : Window := ⟨0, 1, 2, 2⟩
    let motion : Vec2 Double := ⟨.ofBits 0x3ff0000000000000, .ofBits 0⟩
    let call : BlockCall Double := ⟨⟨1, 0, 1, 4⟩, picture, motion, .origin⟩
    let zero : Vec3 Double := ⟨.ofBits 0, .ofBits 0, .ofBits 0⟩
    let minusZero : Vec3 Double := ⟨.ofBits 0x8000000000000000, .ofBits 0, .ofBits 0⟩
    let undefined : Vec3 Double := ⟨.ofBits 0x7ff8000000000001, .ofBits 0, .ofBits 0⟩
    let flavors : Bool → GeodesicFlavor := fun i => if i then .linear else .modulated
    let events : List (GeodesicEvent Bool Double) :=
      [.move true call, .setEpipole true minusZero, .move true call, .setEpipole false undefined, .move false call]
    let s := events.foldl GeodesicSession.step
      (.start projection flavors (fun _ => zero) (projection.unprojectGrid picture))
    let m : PlaneMotion Double := ⟨projection, .leftRight⟩
    let cache := [call, call].foldl (PlaneCache.after m) (.seed m (projection.unprojectGrid picture))
    ∃ fits : w.Fits picture.rows picture.cols,
      (∃ next, m.moveCached cache w (picture.window w fits) motion =
          .ok (m.move (picture.window w fits) motion, next) ∧
        if motion.isZero then next = cache else next.block.key? = some w) ∧
      ∃ next, (s.models true).moveCached s.cache w (picture.window w fits) motion .origin =
          .ok ((s.models true).move (picture.window w fits) motion .origin, next) ∧
        if motion.isZero then next = s.cache
        else next.block.key? = some (w, events.foldl GeodesicEvent.epipoles (fun _ => zero) true) := by
  intro projection picture w motion call zero minusZero undefined flavors events s m cache
  have fits : w.Fits picture.rows picture.cols := by decide
  obtain ⟨ofPlane, ofGeodesic⟩ := moveCached_run_eq_move projection picture w fits motion .origin
  exact ⟨fits, ofPlane .leftRight [call, call], ofGeodesic Bool flavors (fun _ => zero) events true⟩

end SphereMotion
