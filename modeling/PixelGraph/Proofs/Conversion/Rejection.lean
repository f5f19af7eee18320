-- SUMMARY: Which error a conversion reports: that of the first of its rules that the inputs break.
import PixelGraph.Proofs.Conversion.Acceptance
import PixelGraph.Proofs.Rules

/-!
# Rejection

Bad inputs usually break several rules at once. The rules of a conversion are put here in their
order of precedence, each with the error that it reports and the values in it. Inference fails
just with what the first broken rule reports. Reading or replacing a dimension of an image never
fails, so no rule is about that.
-/

namespace PixelGraph

/-- Where the dimension along an axis of a plane stands. -/
def PlaneAxis.position : PlaneAxis → Nat
  | .height => 1
  | .width  => 2

/-! ## Axes of images -/

/-- The four axes of an image, in the order of its dimensions. -/
def Nhwc.axes : List Word :=
  [batch, height, width, channel]

/-- The dimension along every axis of an image can be read and can be replaced. -/
def Shape.HasAxes (s : Shape) : Prop :=
  ∀ axis ∈ Nhwc.axes, (∃ d, s.dim axis = .ok d) ∧ ∀ d, ∃ s', s.withDim axis d = .ok s'

theorem Nhwc.exists_resolve {axis : Word} (haxis : axis ∈ axes) : ∃ i, axis.resolve 4 = .ok i := by
  simp only [axes, List.mem_cons, List.not_mem_nil, or_false] at haxis
  rcases haxis with rfl | rfl | rfl | rfl
  · exact ⟨0, rfl⟩
  · exact ⟨1, rfl⟩
  · exact ⟨2, rfl⟩
  · exact ⟨3, rfl⟩

theorem Shape.hasAxes_of_rank_eq_four {s : Shape} (hrank : s.rank = 4) : s.HasAxes := by
  intro axis haxis
  obtain ⟨i, hi⟩ : ∃ i, axis.resolve s.rank = .ok i := hrank ▸ Nhwc.exists_resolve haxis
  unfold dim withDim
  rw [hi]
  exact ⟨⟨_, rfl⟩, fun d => ⟨_, rfl⟩⟩

namespace RgbConversion

/-! ## Rules -/

def arityRule (inputs : List TensorDesc) : Rule ConversionError :=
  .require (inputs.length = 1 ∨ inputs.length = 2) (.arity inputs.length)

def rankRule (input : Nat) (x : TensorDesc) : Rule ConversionError :=
  .require (x.rank = 4) (.rank input x.shape)

def elementRule (input : Nat) (x : TensorDesc) : Rule ConversionError :=
  .require (x.elementType = .u8 ∨ x.elementType.isReal = true) (.unsupportedType input x.elementType)

def sameElementsRule (y uv : TensorDesc) : Rule ConversionError :=
  .require (y.elementType = uv.elementType) (.typeMismatch y.elementType uv.elementType)

/-- The last dimension has the number of channels, or is open. -/
def channelRule (input : Nat) (expected : UInt64) (x : TensorDesc) : Rule ConversionError :=
  fun e => ∃ d, x.shape.dims[3]? = some d ∧ ¬ d.MayBe expected ∧ e = .channel input expected d

/-- Batches that are both known are equal. -/
def batchRule (y uv : TensorDesc) : Rule ConversionError :=
  fun e => ∃ d d', y.shape.dims[0]? = some d ∧ uv.shape.dims[0]? = some d' ∧
    ¬ d.IfKnown (· = ·) d' ∧ e = .batchMismatch d d'

/-- Extents of the planes that are both known are in the proportion of two to one. -/
def halfRule (axis : PlaneAxis) (y uv : TensorDesc) : Rule ConversionError :=
  fun e => ∃ k k', y.shape.dims[axis.position]? = some (.static k) ∧
    uv.shape.dims[axis.position]? = some (.static k') ∧ ¬ Twice k k' ∧
    e = .derivedDimension (.planeHalf axis k' k)

/-- The image has a height as NV12. -/
def packedHeightRule (rgb : TensorDesc) : Rule ConversionError :=
  fun e => ∃ d, rgb.shape.dims[1]? = some d ∧ (∀ d', ¬ d.HalfAgain d') ∧
    e = .derivedDimension (.packedHeight d)

def packedRules (rgb : TensorDesc) : List (Rule ConversionError) :=
  [channelRule 0 3 rgb, packedHeightRule rgb]

def planesRules (y uv : TensorDesc) : List (Rule ConversionError) :=
  [sameElementsRule y uv, channelRule 0 1 y, channelRule 1 2 uv, batchRule y uv,
    halfRule .height y uv, halfRule .width y uv]

/-- The rules that depend on the number of inputs. -/
def formRules (inputs : List TensorDesc) : List (Rule ConversionError) :=
  match inputs with
  | [rgb]   => packedRules rgb
  | [y, uv] => planesRules y uv
  | _ => []

/-- The rules of a conversion, the ones that take precedence first. -/
def rules (inputs : List TensorDesc) : List (Rule ConversionError) :=
  arityRule inputs :: (inputs.mapIdx rankRule ++ inputs.mapIdx elementRule ++ formRules inputs)

variable {n h w ch n' h' w' ch' : Dim} {t t' : ElementType} {inputs : List TensorDesc}

/-! Of images the rules are about single dimensions. -/

theorem channelRule_image (input : Nat) (expected : UInt64) :
    channelRule input expected ⟨⟨[n, h, w, ch]⟩, t⟩ =
      .require (ch.MayBe expected) (.channel input expected ch) := by
  funext e
  simp [channelRule, Rule.require]

theorem batchRule_image :
    batchRule ⟨⟨[n, h, w, ch]⟩, t⟩ ⟨⟨[n', h', w', ch']⟩, t'⟩ =
      .require (n.IfKnown (· = ·) n') (.batchMismatch n n') := by
  funext e
  simp [batchRule, Rule.require]

theorem packedHeightRule_image :
    packedHeightRule ⟨⟨[n, h, w, ch]⟩, t⟩ =
      .require (∃ h', h.HalfAgain h') (.derivedDimension (.packedHeight h)) := by
  funext e
  simp [packedHeightRule, Rule.require]

/-! ## Single checks -/

theorem failsBy_checkRank (input : Nat) (x : TensorDesc) :
    FailsBy (checkRank input x) [rankRule input x] :=
  .require (fun hrank => ⟨(), if_pos hrank⟩) fun hrank => if_neg hrank

theorem failsBy_checkType (c : RgbConversion) (input : Nat) (x : TensorDesc) :
    FailsBy (c.checkType input x) [elementRule input x] := by
  have hsupported := ElementType.supported_iff c x.elementType
  exact .require (fun helements => ⟨(), if_pos (hsupported.2 helements)⟩)
    fun helements => if_neg fun h => helements (hsupported.1 h)

theorem failsBy_checkChannels (input : Nat) (expected : UInt64) :
    FailsBy (checkChannels input expected ⟨⟨[n, h, w, ch]⟩, t⟩)
      [channelRule input expected ⟨⟨[n, h, w, ch]⟩, t⟩] := by
  rw [channelRule_image]
  apply FailsBy.require
  · intro hch
    exact ⟨(), if_pos (Dim.compatible_iff_mayBe.2 hch)⟩
  · intro hch
    exact if_neg fun h => hch (Dim.compatible_iff_mayBe.1 h)

theorem failsBy_checkBatch :
    FailsBy (checkBatch ⟨⟨[n, h, w, ch]⟩, t⟩ ⟨⟨[n', h', w', ch']⟩, t'⟩)
      [batchRule ⟨⟨[n, h, w, ch]⟩, t⟩ ⟨⟨[n', h', w', ch']⟩, t'⟩] := by
  rw [batchRule_image]
  apply FailsBy.require
  · intro hbatch
    exact ⟨(), checkBatch_eq_ok_iff.2 hbatch⟩
  · intro hbatch
    cases n with
    | dynamic => exact absurd trivial hbatch
    | static e =>
      cases n' with
      | dynamic => exact absurd trivial hbatch
      | static e' =>
        have hne : e ≠ e' := hbatch
        exact if_pos (by simp [hne])

theorem failsBy_checkHalf {axis : PlaneAxis} {y uv : TensorDesc} {d d' : Dim}
    (hy : y.imageDim axis.axis = .ok d) (huv : uv.imageDim axis.axis = .ok d')
    (hd : y.shape.dims[axis.position]? = some d) (hd' : uv.shape.dims[axis.position]? = some d') :
    FailsBy (checkHalf axis y uv) [halfRule axis y uv] := by
  apply FailsBy.single
  intro e
  unfold checkHalf halfRule
  rw [hy, huv, hd, hd']
  cases d with
  | dynamic => exact iff_of_false nofun (by simp)
  | static k =>
    cases d' with
    | dynamic => exact iff_of_false nofun (by simp)
    | static k' =>
      change (if _ then Except.ok () else _) = _ ↔ _
      by_cases htwice : Twice k k'
      · rw [if_pos (half_eq_static_iff_twice.2 htwice)]
        refine iff_of_false nofun ?_
        rintro ⟨_, _, ⟨⟩, ⟨⟩, hbroken, -⟩
        exact hbroken htwice
      · rw [if_neg fun h => htwice (half_eq_static_iff_twice.1 h), Except.error.injEq]
        constructor
        · rintro rfl
          exact ⟨k, k', rfl, rfl, htwice, rfl⟩
        · rintro ⟨_, _, ⟨⟩, ⟨⟩, -, rfl⟩
          rfl

theorem exists_scale_eq_error (hagain : ∀ h', ¬ h.HalfAgain h') :
    ∃ err, h.scale 3 2 = .error err := by
  cases hscale : h.scale 3 2 with
  | error err => exact ⟨err, rfl⟩
  | ok h' =>
    have hok : packedHeight h = .ok h' := mapError_eq_ok_iff.2 hscale
    exact absurd (packedHeight_eq_ok_iff.1 hok) (hagain h')

theorem failsBy_packedHeight :
    FailsBy (packedHeight h) [packedHeightRule ⟨⟨[n, h, w, ch]⟩, t⟩] := by
  rw [packedHeightRule_image]
  apply FailsBy.require
  · rintro ⟨d', hagain⟩
    exact ⟨d', packedHeight_eq_ok_iff.2 hagain⟩
  · intro hagain
    obtain ⟨err, hscale⟩ := exists_scale_eq_error (not_exists.1 hagain)
    unfold packedHeight
    rw [hscale]
    rfl

theorem failsBy_inferPacked :
    FailsBy (inferPacked ⟨⟨[n, h, w, ch]⟩, t⟩) (packedRules ⟨⟨[n, h, w, ch]⟩, t⟩) := by
  unfold inferPacked packedRules
  refine (failsBy_checkChannels 0 3).check fun _ _ => ?_
  rw [TensorDesc.imageDim_height]
  exact failsBy_packedHeight.check fun h' _ => .ok _

theorem failsBy_inferPlanes :
    FailsBy (inferPlanes ⟨⟨[n, h, w, ch]⟩, t⟩ ⟨⟨[n', h', w', ch']⟩, t'⟩)
      (planesRules ⟨⟨[n, h, w, ch]⟩, t⟩ ⟨⟨[n', h', w', ch']⟩, t'⟩) := by
  unfold inferPlanes planesRules
  refine .guard (fun _ => ?_) rfl
  refine (failsBy_checkChannels 0 1).check fun _ _ => ?_
  refine (failsBy_checkChannels 1 2).check fun _ _ => ?_
  refine failsBy_checkBatch.check fun _ _ => ?_
  refine (failsBy_checkHalf rfl rfl rfl rfl).check fun _ _ => ?_
  exact (failsBy_checkHalf rfl rfl rfl rfl).result _

/-! ## Inference -/

theorem failsBy_forM_zipIdx (inputs : List TensorDesc)
    {check : Nat → TensorDesc → Except ConversionError Unit}
    {rule : Nat → TensorDesc → Rule ConversionError}
    (hcheck : ∀ i x, FailsBy (check i x) [rule i x]) :
    FailsBy (inputs.zipIdx.forM fun (x, i) => check i x) (inputs.mapIdx rule) := by
  rw [List.mapIdx_eq_zipIdx_map]
  exact .forM (fun _ => hcheck _ _) _

theorem failsBy_checkImages (c : RgbConversion) (inputs : List TensorDesc) :
    FailsBy (c.checkImages inputs) (inputs.mapIdx rankRule ++ inputs.mapIdx elementRule) :=
  (failsBy_forM_zipIdx inputs failsBy_checkRank).bind fun _ _ =>
    failsBy_forM_zipIdx inputs c.failsBy_checkType

theorem failsBy_infer (c : RgbConversion) (inputs : List TensorDesc) :
    FailsBy (c.infer inputs) (rules inputs) := by
  match inputs with
  | [] => exact .error fun _ => Rule.require_iff nofun
  | [rgb] =>
    refine FailsBy.kept ?_ (Rule.kept_require (.inl rfl))
    refine (c.failsBy_checkImages [rgb]).bind fun _ hchecked => ?_
    -- What passes the first checks has four dimensions, which the remaining rules are about.
    have himages := checkImages_eq_ok_iff.1 hchecked
    obtain ⟨n, h, w, ch, t, rfl⟩ := (himages rgb List.mem_cons_self).exists_dims
    exact failsBy_inferPacked.result _
  | [y, uv] =>
    refine FailsBy.kept ?_ (Rule.kept_require (.inr rfl))
    refine (c.failsBy_checkImages [y, uv]).bind fun _ hchecked => ?_
    have himages := checkImages_eq_ok_iff.1 hchecked
    obtain ⟨n, h, w, ch, t, rfl⟩ := (himages y List.mem_cons_self).exists_dims
    obtain ⟨n', h', w', ch', t', rfl⟩ :=
      (himages uv (List.mem_cons_of_mem _ List.mem_cons_self)).exists_dims
    exact failsBy_inferPlanes
  | _ :: _ :: _ :: _ => exact .error fun _ => Rule.require_iff (by simp)

/-! ## Errors of inference -/

/-- Half of one extent is not another: the first is odd, or its half is a third extent. -/
def UnequalHalf (k k' : UInt64) : Prop :=
  (Dim.static k).half = .error .inexact ∨ ∃ q, (Dim.static k).half = .ok (.static q) ∧ q ≠ k'

/-- The dimensions of the inputs that are not in proportion, and the text that names them. What is
wrong is an extent, which is too large or not a multiple. It is never a division by zero. -/
inductive NotDerived : List TensorDesc → DerivedDimension → String → Prop
  | packedHeight {rgb : TensorDesc} {k : UInt64} {err : ScaleError}
      (hheight : rgb.shape.dims[1]? = some (.static k))
      (hscale : (Dim.static k).scale 3 2 = .error err) (herr : err = .overflow ∨ err = .inexact) :
      NotDerived [rgb] (.packedHeight (.static k))
        ("image height " ++ toString k.toNat ++
          " has no exact 1.5x NV12 height that fits in usize")
  | planeHeight {y uv : TensorDesc} {k k' : UInt64}
      (hy : y.shape.dims[1]? = some (.static k)) (huv : uv.shape.dims[1]? = some (.static k'))
      (hhalf : UnequalHalf k k') :
      NotDerived [y, uv] (.planeHalf .height k' k)
        ("UV plane height " ++ toString k'.toNat ++ " must be half of Y plane height " ++
          toString k.toNat)
  | planeWidth {y uv : TensorDesc} {k k' : UInt64}
      (hy : y.shape.dims[2]? = some (.static k)) (huv : uv.shape.dims[2]? = some (.static k'))
      (hhalf : UnequalHalf k k') :
      NotDerived [y, uv] (.planeHalf .width k' k)
        ("UV plane width " ++ toString k'.toNat ++ " must be half of Y plane width " ++
          toString k.toNat)

theorem unequalHalf_of_not_twice {k k' : UInt64} (htwice : ¬ Twice k k') : UnequalHalf k k' := by
  cases hhalf : (Dim.static k).half with
  | error err =>
    rw [Dim.eq_inexact_of_half hhalf] at hhalf
    exact .inl hhalf
  | ok d =>
    obtain ⟨q, rfl, hq⟩ := Dim.half_static_eq_ok_iff.1 hhalf
    refine .inr ⟨q, hhalf, ?_⟩
    rintro rfl
    exact htwice hq

/-- What an error may say of the inputs: nothing of looking up an axis, and of a dimension that is
not derived just what is the case. -/
def Explained (inputs : List TensorDesc) : ConversionError → Prop
  | .shape _ => False
  | .derivedDimension cause => NotDerived inputs cause cause.message
  | _ => True

variable {e : ConversionError}

theorem explained_of_channelRule {input : Nat} {expected : UInt64} {x : TensorDesc}
    (he : channelRule input expected x e) : Explained inputs e := by
  obtain ⟨_, _, _, rfl⟩ := he
  trivial

theorem explained_of_packedHeightRule {rgb : TensorDesc} (he : packedHeightRule rgb e) :
    Explained [rgb] e := by
  obtain ⟨d, hd, hagain, rfl⟩ := he
  cases d with
  | dynamic => exact absurd .dynamic (hagain .dynamic)
  | static k =>
    obtain ⟨err, hscale⟩ := exists_scale_eq_error hagain
    exact .packedHeight hd hscale (Dim.eq_overflow_or_inexact (by decide) hscale)

theorem explained_of_halfRule {axis : PlaneAxis} {y uv : TensorDesc} (he : halfRule axis y uv e) :
    Explained [y, uv] e := by
  obtain ⟨k, k', hk, hk', htwice, rfl⟩ := he
  have hhalf : UnequalHalf k k' := unequalHalf_of_not_twice htwice
  unfold Explained
  dsimp only
  rw [DerivedDimension.message_planeHalf]
  cases axis with
  | height => exact .planeHeight hk hk' hhalf
  | width => exact .planeWidth hk hk' hhalf

theorem explained_of_mem_formRules {r : Rule ConversionError} (hr : r ∈ formRules inputs)
    (he : r e) : Explained inputs e := by
  match inputs with
  | [] => cases hr
  | [rgb] =>
    simp only [formRules, packedRules, List.mem_cons, List.not_mem_nil, or_false] at hr
    rcases hr with rfl | rfl
    · exact explained_of_channelRule he
    · exact explained_of_packedHeightRule he
  | [y, uv] =>
    simp only [formRules, planesRules, List.mem_cons, List.not_mem_nil, or_false] at hr
    rcases hr with rfl | rfl | rfl | rfl | rfl | rfl
    · obtain ⟨-, rfl⟩ := he
      trivial
    · exact explained_of_channelRule he
    · exact explained_of_channelRule he
    · obtain ⟨_, _, _, _, _, rfl⟩ := he
      trivial
    · exact explained_of_halfRule he
    · exact explained_of_halfRule he
  | _ :: _ :: _ :: _ => cases hr

theorem explained_of_mem_rules {r : Rule ConversionError} (hr : r ∈ rules inputs) (he : r e) :
    Explained inputs e := by
  unfold rules at hr
  rw [List.mem_cons, List.mem_append, List.mem_append, List.mem_mapIdx, List.mem_mapIdx] at hr
  rcases hr with rfl | (⟨i, hi, rfl⟩ | ⟨i, hi, rfl⟩) | hr
  · obtain ⟨-, rfl⟩ := he
    trivial
  · obtain ⟨-, rfl⟩ := he
    trivial
  · obtain ⟨-, rfl⟩ := he
    trivial
  · exact explained_of_mem_formRules hr he

theorem explained_of_infer_eq_error {c : RgbConversion} (hinfer : c.infer inputs = .error e) :
    Explained inputs e := by
  obtain ⟨r, hr, he⟩ := ((c.failsBy_infer inputs e).1 hinfer).exists_mem
  exact explained_of_mem_rules hr he

/-- Inference fails just with what the first broken rule reports. Images have all the axes that
are looked up, also after a dimension of them is replaced. Where a dimension is not derived, the
text names the extents at fault, and the scaling that fails is not a division by zero, as neither
of the two scalings ever is. -/
theorem infer_eq_error_iff_firstBroken (c : RgbConversion) (inputs : List TensorDesc) :
    (∀ e, c.infer inputs = .error e ↔ FirstBroken (rules inputs) e) ∧
    (∀ cause, c.infer inputs = .error (.derivedDimension cause) →
      NotDerived inputs cause cause.message) ∧
    (∀ e, c.infer inputs ≠ .error (.shape e)) ∧
    (c.checkImages inputs = .ok () → ∀ x ∈ inputs, x.shape.HasAxes ∧
      ∀ axis d s', x.shape.withDim axis d = .ok s' → s'.HasAxes) ∧
    ∀ d : Dim, d.scale 3 2 ≠ .error .divisionByZero ∧ d.half ≠ .error .divisionByZero := by
  refine ⟨c.failsBy_infer inputs, fun _ => explained_of_infer_eq_error,
    fun _ => explained_of_infer_eq_error, fun hchecked x hx => ?_, fun d => ⟨?_, ?_⟩⟩
  · have hrank : x.shape.rank = 4 := (checkImages_eq_ok_iff.1 hchecked x hx).rank
    refine ⟨Shape.hasAxes_of_rank_eq_four hrank, fun axis d s' hreplaced => ?_⟩
    exact Shape.hasAxes_of_rank_eq_four ((Shape.rank_of_withDim_eq_ok hreplaced).trans hrank)
  · exact Dim.scale_ne_divisionByZero (by decide) d 3
  · exact Dim.scale_ne_divisionByZero (by decide) d 1

/-- Planes that break every rule about the two together. -/
def unmatchedPlanes : List TensorDesc :=
  [⟨⟨[.static 1, .static 3, .static 4, .static 2]⟩, .u8⟩,
    ⟨⟨[.static 2, .static 3, .static 4, .static 3]⟩, .f16⟩]

/-- Planes whose heights are not in proportion. -/
def unhalvedPlanes : List TensorDesc :=
  [⟨⟨[.static 1, .static 4, .static 4, .static 1]⟩, .u8⟩,
    ⟨⟨[.static 1, .static 3, .static 2, .static 2]⟩, .u8⟩]

/-- Of all that is wrong with the first planes, the types of their elements come first. -/
theorem infer_unmatchedPlanes :
    infer {} unmatchedPlanes = .error (.typeMismatch .u8 .f16) ∧
    checkImages {} unmatchedPlanes = .ok () ∧ (∀ x ∈ unmatchedPlanes, x.shape.HasAxes) ∧
    infer {} unhalvedPlanes = .error (.derivedDimension (.planeHalf .height 3 4)) ∧
    NotDerived unhalvedPlanes (.planeHalf .height 3 4)
      "UV plane height 3 must be half of Y plane height 4" := by
  obtain ⟨hfails, -, -, haxes, -⟩ := infer_eq_error_iff_firstBroken {} unmatchedPlanes
  obtain ⟨-, htext, -⟩ := infer_eq_error_iff_firstBroken {} unhalvedPlanes
  refine ⟨(hfails _).2 ?_, rfl, fun x hx => (haxes rfl x hx).1, rfl, htext _ rfl⟩
  refine .tail (Rule.kept_require (.inr rfl)) ?_
  refine .tail (Rule.kept_require rfl) (.tail (Rule.kept_require rfl) ?_)
  refine .tail (Rule.kept_require (.inl rfl)) (.tail (Rule.kept_require (.inr rfl)) ?_)
  exact .head ⟨nofun, rfl⟩

end RgbConversion

end PixelGraph
