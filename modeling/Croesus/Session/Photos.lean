import Croesus.Helpers.ActivityIndicator
import Croesus.Managers.Profile
import Croesus.Session.App

namespace Croesus.Session

open ActivityIndicator Firestore FIRFirestoreService Library

/-- How far a confirmed photo has got. A photo that has no JPEG data is not
uploaded, and leaves the overlay where it is. -/
inductive Stage
  | failed
  | uploading
  | lookingUp
  | posted (url : String)
  deriving DecidableEq

def Stage.isFinished : Stage → Bool
  | .failed | .posted _ => true
  | .uploading | .lookingUp => false

/-- A photo, with the number of the `RotateImageViewController` that it was
confirmed in. It is stored under a name of its own. -/
structure Photo (Image : Type) where
  sender : ℕ
  image : Image
  stage : Stage
  deriving DecidableEq

/-- The photos in the order in which they were confirmed, and what the
`PersonalInformationViewController` has got of them. -/
structure Photos (Image : Type) where
  photos : List (Photo Image) := []
  controller : PersonalInformationViewController := {}
  profilePicture : Option Image := none
  loading : Overlays ℕ := {}

namespace Photos

/-- A tap on Done, the answers of the storage to the upload of the `n`-th photo
and to the lookup of its URL, and a block of the main queue. -/
inductive Event (Image : Type)
  | done (sender : ℕ) (image : Image)
  | putData (n : ℕ) (succeeded : Bool)
  | downloadURL (n : ℕ) (url : Option String)
  | block

variable {Image : Type} (jpegData : Image → Option (List UInt8)) (s : Photos Image)

def uploadPhoto (sender : ℕ) (image : Image) : Photos Image :=
  let stage : Stage := if (jpegData image).isSome then .uploading else .failed
  { s with
    photos := s.photos ++ [⟨sender, image, stage⟩]
    loading := s.loading.showLoadingAdded sender }

def setStage (n : ℕ) (photo : Photo Image) (stage : Stage) : Photos Image :=
  { s with photos := s.photos.set n { photo with stage := stage } }

/-- The overlay goes before the URL has been looked up. -/
def putDataAnswered (n : ℕ) (photo : Photo Image) (succeeded : Bool) : Photos Image :=
  { s.setStage n photo (if succeeded then .lookingUp else .failed) with
    loading := s.loading.hideLoading }

def setProfilePic (image : Image) : Photos Image := { s with profilePicture := some image }

def setProfilePicUrl (url : String) : Photos Image :=
  { s with controller := { s.controller with photoURL := some url } }

/-- Both notifications are posted at once, the picture's first. -/
def downloadURLAnswered (n : ℕ) (photo : Photo Image) : Option String → Photos Image
  | none => s.setStage n photo .failed
  | some url => ((s.setStage n photo (.posted url)).setProfilePic photo.image).setProfilePicUrl url

def step : Event Image → Photos Image
  | .done sender image => s.uploadPhoto jpegData sender image
  | .putData n succeeded =>
    match s.photos[n]? with
    | none => s
    | some photo => if photo.stage = .uploading then s.putDataAnswered n photo succeeded else s
  | .downloadURL n url =>
    match s.photos[n]? with
    | none => s
    | some photo => if photo.stage = .lookingUp then s.downloadURLAnswered n photo url else s
  | .block => { s with loading := s.loading.block }

def run (events : List (Event Image)) : Photos Image := events.foldl (step jpegData) {}

/-- The `n`-th photo has been uploaded, and its URL has been found. -/
def HasSucceeded (n : ℕ) (image : Image) (url : String) : Prop :=
  ∃ sender, s.photos[n]? = some ⟨sender, image, .posted url⟩

/-- What the storage keeps to: it answers what it was asked, and different photos
have different URLs. -/
def isHonest : Event Image → Bool
  | .done _ _ | .block => true
  | .putData n _ => s.photos[n]?.any (·.stage = .uploading)
  | .downloadURL n url => s.photos[n]?.any (·.stage = .lookingUp) &&
      url.all fun u ↦ s.photos.all (·.stage ≠ .posted u)

/-- The photo whose URL is found by the event. -/
def finishes : Event Image → Option ℕ
  | .downloadURL n (some _) => some n
  | _ => none

/-- The photos that succeed, in the order in which they do. -/
def finished (events : List (Event Image)) : List ℕ := events.filterMap finishes

/-- The picture, the URL, and the URL that `sendUserData` stores come from the
photo confirmed last among those that have succeeded. -/
def ShowsLatest : Prop :=
  ∀ n image url, s.HasSucceeded n image url →
    (∀ m image' url', s.HasSucceeded m image' url' → m ≤ n) →
    s.profilePicture = some image ∧ s.controller.photoURL = some url ∧
      ∀ (app : App) (uid firstName lastName : String) (user : User), IsSegment uid →
        app.uid = some uid →
        ∃ fields, (app.sendUserData { s.controller with
            firstName := firstName, lastName := lastName, user := some user }).users
              (.child .users uid) = some fields ∧
          fields.lookup "photoUrl" = some (.string url)

variable {jpegData s}

theorem hasSucceeded_uploadPhoto (sender : ℕ) (image' : Image) (n : ℕ) (image : Image)
    (url : String) : (s.uploadPhoto jpegData sender image').HasSucceeded n image url ↔
      s.HasSucceeded n image url := by
  apply exists_congr
  intro sender'
  simp only [uploadPhoto, List.getElem?_append]
  by_cases hn : n < s.photos.length
  · rw [if_pos hn]
  · rw [if_neg hn]
    refine iff_of_false (fun h ↦ ?_) (by simp [List.getElem?_eq_none (not_lt.mp hn)])
    have hstage := congrArg Photo.stage (List.mem_singleton.mp (List.mem_of_getElem? h))
    dsimp only at hstage
    split_ifs at hstage

theorem hasSucceeded_setStage {n : ℕ} {photo : Photo Image} (hn : s.photos[n]? = some photo)
    (hstage : ∀ url, photo.stage ≠ .posted url) (stage : Stage) (m : ℕ) (image : Image)
    (url : String) : (s.setStage n photo stage).HasSucceeded m image url ↔
      s.HasSucceeded m image url ∨ m = n ∧ image = photo.image ∧ stage = .posted url := by
  simp only [HasSucceeded, setStage, List.getElem?_set]
  by_cases hm : n = m
  · subst hm
    have hlt : n < s.photos.length := (List.getElem?_eq_some_iff.mp hn).1
    have hold : ¬ ∃ sender, s.photos[n]? = some ⟨sender, image, .posted url⟩ := by
      rintro ⟨sender, hp⟩
      rw [hn] at hp
      exact hstage url (by rw [Option.some.inj hp])
    rw [or_iff_right hold]
    simp [hlt, eq_comm]
  · simp [hm, Ne.symm hm]

/-- The photos of the list are those that have succeeded, and the last of them
is the one that is shown. -/
structure Finished (l : List ℕ) (s : Photos Image) : Prop where
  mem : ∀ n, n ∈ l ↔ ∃ image url, s.HasSucceeded n image url
  last : ∀ n ∈ l.getLast?, ∃ image url, s.HasSucceeded n image url ∧
    s.profilePicture = some image ∧ s.controller.photoURL = some url
  urls : ∀ m n image image' url, s.HasSucceeded m image url → s.HasSucceeded n image' url → m = n

theorem Finished.congr {l : List ℕ} (h : Finished l s) {s' : Photos Image}
    (hs : ∀ n image url, s'.HasSucceeded n image url ↔ s.HasSucceeded n image url)
    (hpicture : s'.profilePicture = s.profilePicture)
    (hcontroller : s'.controller = s.controller) : Finished l s' where
  mem := by simpa only [hs] using h.mem
  last := by simpa only [hs, hpicture, hcontroller] using h.last
  urls := by simpa only [hs] using h.urls

theorem Finished.downloadURLAnswered {l : List ℕ} (h : Finished l s) {n : ℕ} {photo : Photo Image}
    (hn : s.photos[n]? = some photo) (hstage : photo.stage = .lookingUp) {url : String}
    (hurl : ∀ m image, ¬ s.HasSucceeded m image url) :
    Finished (l ++ [n]) (s.downloadURLAnswered n photo (some url)) := by
  have hs (m : ℕ) (image : Image) (u : String) :
      (s.downloadURLAnswered n photo (some url)).HasSucceeded m image u ↔
        s.HasSucceeded m image u ∨ m = n ∧ image = photo.image ∧ url = u := by
    have hset := hasSucceeded_setStage hn (by simp [hstage]) (.posted url) m image u
    rwa [Stage.posted.injEq] at hset
  constructor
  · intro m
    simp only [hs, List.mem_append, h.mem, List.mem_singleton, exists_or]
    simp
  · intro m hm
    obtain rfl : n = m := by simpa using hm
    exact ⟨photo.image, url, (hs _ _ _).mpr (.inr ⟨rfl, rfl, rfl⟩), rfl, rfl⟩
  · intro m k image image' u hm hk
    rw [hs] at hm hk
    obtain hm | ⟨rfl, -, rfl⟩ := hm
    · obtain hk | ⟨rfl, -, rfl⟩ := hk
      · exact h.urls m k image image' u hm hk
      · exact absurd hm (hurl m image)
    · obtain hk | ⟨rfl, -, -⟩ := hk
      · exact absurd hk (hurl k image')
      · rfl

theorem Finished.append {l : List ℕ} (h : Finished l s) (event : Event Image)
    (hf : finishes event = none) : Finished (l ++ (finishes event).toList) s := by
  simpa [hf] using h

theorem Finished.setStage {l : List ℕ} (h : Finished l s) {n : ℕ} {photo : Photo Image}
    (hn : s.photos[n]? = some photo) (hold : ∀ url, photo.stage ≠ .posted url) (stage : Stage)
    (hnew : ∀ url, stage ≠ .posted url) : Finished l (s.setStage n photo stage) :=
  h.congr (fun m image url ↦ by simp [hasSucceeded_setStage hn hold, hnew]) rfl rfl

theorem finished_step {l : List ℕ} (h : Finished l s) (event : Event Image)
    (hh : s.isHonest event) : Finished (l ++ (finishes event).toList) (s.step jpegData event) := by
  cases event with
  | done sender image =>
    refine Finished.append ?_ (.done sender image) rfl
    exact h.congr (hasSucceeded_uploadPhoto sender image) rfl rfl
  | block =>
    refine Finished.append ?_ .block rfl
    exact h.congr (fun _ _ _ ↦ Iff.rfl) rfl rfl
  | putData n succeeded =>
    obtain ⟨photo, hn, hstage⟩ : ∃ photo, s.photos[n]? = some photo ∧ photo.stage = .uploading := by
      simpa [isHonest, Option.any_eq_true] using hh
    have hset := h.setStage hn (by simp [hstage]) (if succeeded then .lookingUp else .failed)
      (by cases succeeded <;> simp)
    simp only [step, hn, hstage, if_true]
    refine Finished.append ?_ (.putData n succeeded) rfl
    exact hset.congr (fun _ _ _ ↦ Iff.rfl) rfl rfl
  | downloadURL n url =>
    obtain ⟨⟨photo, hn, hstage⟩, hurl⟩ : (∃ photo, s.photos[n]? = some photo ∧
        photo.stage = .lookingUp) ∧ url.all fun u ↦ s.photos.all (·.stage ≠ .posted u) := by
      simpa [isHonest, Option.any_eq_true] using hh
    simp only [step, hn, hstage, if_true]
    cases url with
    | none => exact (h.setStage hn (by simp [hstage]) .failed (by simp)).append _ rfl
    | some url =>
      apply h.downloadURLAnswered hn hstage
      rintro m image ⟨sender, hm⟩
      have hfresh : ∀ photo ∈ s.photos, photo.stage ≠ .posted url := by simpa using hurl
      exact hfresh _ (List.mem_of_getElem? hm) rfl

theorem finished_eq_foldl (events : List (Event Image)) (l : List ℕ) :
    events.foldl (fun l event ↦ l ++ (finishes event).toList) l = l ++ finished events := by
  induction events generalizing l with
  | nil => simp [finished]
  | cons event events ih =>
    rw [List.foldl_cons, ih]
    cases h : finishes event <;> simp [finished, h]

theorem finished_run (events : List (Event Image))
    (hh : Execution.Along (step jpegData) (fun s event ↦ s.isHonest event) {} events) :
    Finished (finished events) (run jpegData events) := by
  have hempty : Finished [] ({} : Photos Image) := by
    constructor <;> simp [HasSucceeded]
  have hrun := Execution.simulation_along (R := Finished) (g := step jpegData)
    (fun l s event h hh ↦ finished_step h event hh) hempty hh
  rwa [finished_eq_foldl] at hrun

theorem stored_photoUrl (c : PersonalInformationViewController) {photoURL : String} {user : User}
    (hphoto : c.photoURL = some photoURL) (huser : c.user = some user) {app : App} {uid : String}
    (huid : app.uid = some uid) (hs : IsSegment uid) :
    ∃ fields, (app.sendUserData c).users (.child .users uid) = some fields ∧
      fields.lookup "photoUrl" = some (.string photoURL) := by
  obtain ⟨fields, hfields⟩ := parsedSetData_profile (App.userData c photoURL user)
  refine ⟨fields, ?_, (storedProfile_of_decode (decode_profile uid hfields)).photoUrl⟩
  simp only [App.sendUserData, hphoto, huid, huser, create_profile hs _ _ _ hfields]
  exact Function.update_self ..

theorem HasSucceeded.unique {n : ℕ} {image image' : Image} {url url' : String}
    (h : s.HasSucceeded n image url) (h' : s.HasSucceeded n image' url') :
    image = image' ∧ url = url' := by
  obtain ⟨sender, hn⟩ := h
  obtain ⟨sender', hn'⟩ := h'
  simpa using (Photo.mk.inj (Option.some.inj (hn.symm.trans hn'))).2

theorem Finished.showsLatest_iff {l : List ℕ} (h : Finished l s) :
    s.ShowsLatest ↔ ∀ last ∈ l.getLast?, ∀ n ∈ l, n ≤ last := by
  constructor
  · intro hlatest last hlast n hn
    obtain ⟨image, url, hs, -, hshown⟩ := h.last last hlast
    obtain ⟨latest, hmem, hmax⟩ : ∃ latest ∈ l, ∀ m ∈ l, m ≤ latest := by
      cases hm : l.max? with
      | none => simp [List.max?_eq_none_iff.mp hm] at hn
      | some latest => exact ⟨latest, List.max?_eq_some_iff.mp hm⟩
    -- the photo confirmed last is the one shown, as no other has its URL
    obtain ⟨image', url', hs'⟩ := (h.mem latest).mp hmem
    obtain ⟨-, hshown', -⟩ := hlatest latest image' url' hs' fun m image'' url'' hm ↦
      hmax m ((h.mem m).mpr ⟨image'', url'', hm⟩)
    obtain rfl : url' = url := Option.some.inj (hshown'.symm.trans hshown)
    obtain rfl := h.urls latest last image' image url' hs' hs
    exact hmax n hn
  · intro hall n image url hs hmax
    have hn : n ∈ l := (h.mem n).mpr ⟨image, url, hs⟩
    cases hlast : l.getLast? with
    | none => simp [List.getLast?_eq_none_iff.mp hlast] at hn
    | some last =>
      obtain ⟨image', url', hs', hpicture, hshown⟩ := h.last last hlast
      obtain rfl : n = last := Nat.le_antisymm (hall last hlast n hn) (hmax last image' url' hs')
      obtain ⟨rfl, rfl⟩ := hs.unique hs'
      refine ⟨hpicture, hshown, fun app uid firstName lastName user hsegment huid ↦ ?_⟩
      have hphoto : { s.controller with
          firstName := firstName, lastName := lastName, user := some user }.photoURL = some url := hshown
      exact stored_photoUrl _ hphoto rfl huid hsegment

/-- The photo that is shown and stored is the one confirmed last, of those that
have succeeded, if and only if none of them has been confirmed after the one
that was the last to succeed. -/
theorem photos_iff (jpegData : Image → Option (List UInt8)) (events : List (Event Image))
    (h : Execution.Along (step jpegData) (fun s event ↦ s.isHonest event) {} events) :
    (run jpegData events).ShowsLatest ↔
      ∀ last ∈ (finished events).getLast?, ∀ n ∈ finished events, n ≤ last :=
  (finished_run events h).showsLatest_iff

/-- Two photos, in one screen each, whose URLs are found in this order. -/
def twoPhotos (first second : ℕ) : List (Event String) :=
  [.done 1 "front", .putData 0 true, .done 2 "side", .putData 1 true,
    .downloadURL first (some "a"), .downloadURL second (some "b"), .block, .block]

theorem photos_in_order : (run (fun _ ↦ some []) (twoPhotos 0 1)).ShowsLatest :=
  (photos_iff (fun _ ↦ some []) (twoPhotos 0 1) (by decide +kernel)).mpr (by decide)

/-- The first photo comes back when its URL is found after that of the second. -/
theorem photos_overtaken :
    ¬ ∀ (Image : Type) (jpegData : Image → Option (List UInt8)) (events : List (Event Image)),
      Execution.Along (step jpegData) (fun s event ↦ s.isHonest event) {} events →
      (∀ photo ∈ (run jpegData events).photos, photo.stage.isFinished) →
      (run jpegData events).ShowsLatest := by
  intro h
  have hlatest := h String (fun _ ↦ some []) (twoPhotos 1 0) (by decide +kernel) (by decide +kernel)
  have hphotos : (run (fun _ ↦ some []) (twoPhotos 1 0)).photos =
      [⟨1, "front", .posted "b"⟩, ⟨2, "side", .posted "a"⟩] := by decide +kernel
  have hmax (m : ℕ) (image url : String)
      (hm : (run (fun _ ↦ some []) (twoPhotos 1 0)).HasSucceeded m image url) : m ≤ 1 := by
    obtain ⟨sender, hm⟩ := hm
    have hlt := (List.getElem?_eq_some_iff.mp hm).1
    rw [hphotos] at hlt
    exact Nat.le_of_lt_succ hlt
  obtain ⟨hpicture, -, -⟩ := hlatest 1 "side" "a" ⟨2, by rw [hphotos]; rfl⟩ hmax
  exact absurd hpicture (by decide +kernel)

end Photos

end Croesus.Session
