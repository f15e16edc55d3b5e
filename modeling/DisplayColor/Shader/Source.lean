import DisplayColor.Shader.Opcode

/-! # The shader

The text of the shader that carries out uniform blocks on a graphics device.  It declares one
function, `apply_color_pipeline`, which a host shader calls for each colour.  The numbers that the
text shares with the packing of blocks are taken from there. -/

namespace DisplayColor.Shader

def bindingGroup : Nat := 0

inductive Binding
  | uniforms
  | firstCurves
  | secondCurves
  | cube
  | sampler
deriving DecidableEq, Repr

def Binding.all : List Binding := [.uniforms, .firstCurves, .secondCurves, .cube, .sampler]

def Binding.index : Binding → Nat
  | uniforms => 0
  | firstCurves => 1
  | secondCurves => 2
  | cube => 3
  | sampler => 4

def declareBinding (binding : Binding) (declaration : String) : String :=
  let index := binding.index
  s!"@group({bindingGroup}) @binding({index}) " ++ declaration

def declareCode (name : String) (code : UInt32) : String := s!"const {name}: u32 = {code}u;"

def structures : List String :=
  let matrices := SlotKind.matrix.limit
  let transfers := SlotKind.transfer.limit
  let curves := SlotKind.curves.limit
  let operations := operationLimit
  ["struct TransferFunction \x7b",
    "    kind: u32,",
    "    min_luminance: f32,",
    "    max_luminance: f32,",
    "    _pad: f32,",
    "\x7d",
    "",
    "struct Tonemapper \x7b",
    "    reference_luminance: f32,",
    "    input_range: f32,",
    "    added_range: f32,",
    "    output_reference_luminance: f32,",
    "    max_output_luminance: f32,",
    "    _pad0: f32,",
    "    _pad1: f32,",
    "    _pad2: f32,",
    "\x7d",
    "",
    "struct Op \x7b",
    "    kind: u32,",
    "    index: u32,",
    "    _pad0: u32,",
    "    _pad1: u32,",
    "\x7d",
    "",
    "struct ColorPipeline \x7b",
    s!"    matrices: array<mat4x4<f32>, {matrices}>,",
    s!"    transfer_functions: array<TransferFunction, {transfers}>,",
    "    tonemapper: Tonemapper,",
    s!"    ops: array<Op, {operations}>,",
    s!"    lut1d_params: array<vec4<f32>, {curves}>,   // domain min, domain max, size, 0",
    "    lut3d_params: vec4<f32>,             // size, 0, 0, 0",
    "    op_count: u32,",
    "    _pad0: u32,",
    "    _pad1: u32,",
    "    _pad2: u32,",
    "\x7d",
    ""]

def bindings : List String :=
  [declareBinding .uniforms "var<uniform> pipeline: ColorPipeline;",
    declareBinding .firstCurves "var lut1d_0: texture_2d<f32>;   // size x 1",
    declareBinding .secondCurves "var lut1d_1: texture_2d<f32>;",
    declareBinding .cube "var lut3d: texture_3d<f32>;",
    declareBinding .sampler "var lut_sampler: sampler;", ""]

def codes : List String :=
  Opcode.all.map (fun opcode => declareCode opcode.constant opcode.code) ++ [""]
    ++ Curve.all.map (fun curve => declareCode curve.constant curve.code) ++ [""]

def constants : List String :=
  ["const PQ_M1: f32 = 0.1593017578125;",
    "const PQ_M2: f32 = 78.84375;",
    "const PQ_C1: f32 = 0.8359375;",
    "const PQ_C2: f32 = 18.8515625;",
    "const PQ_C3: f32 = 18.6875;",
    "",
    "const HLG_A: f32 = 0.17883277;",
    "const HLG_B: f32 = 0.28466892;",
    "const HLG_C: f32 = 0.55991073;",
    "",
    "const E: f32 = 2.718281828459045;",
    ""]

def curves : List String :=
  ["fn srgb_eotf(v: f32) -> f32 \x7b",
    "    if v <= 0.04045 \x7b",
    "        return v / 12.92;",
    "    \x7d",
    "    return pow((v + 0.055) / 1.055, 2.4);",
    "\x7d",
    "",
    "fn srgb_oetf(l: f32) -> f32 \x7b",
    "    if l <= 0.0031308 \x7b",
    "        return l * 12.92;",
    "    \x7d",
    "    return 1.055 * pow(l, 1.0 / 2.4) - 0.055;",
    "\x7d",
    "",
    "fn gamma22_eotf(v: f32) -> f32 \x7b",
    "    return sign(v) * pow(abs(v), 2.2);",
    "\x7d",
    "",
    "fn gamma22_oetf(l: f32) -> f32 \x7b",
    "    return sign(l) * pow(abs(l), 1.0 / 2.2);",
    "\x7d",
    "",
    "fn pq_eotf(v: f32) -> f32 \x7b",
    "    if v <= 0.0 \x7b",
    "        return 0.0;",
    "    \x7d",
    "    let vp = pow(min(v, 1.0), 1.0 / PQ_M2);",
    "    let num = max(vp - PQ_C1, 0.0);",
    "    let den = PQ_C2 - PQ_C3 * vp;",
    "    return pow(num / den, 1.0 / PQ_M1);",
    "\x7d",
    "",
    "fn pq_oetf(y: f32) -> f32 \x7b",
    "    if y <= 0.0 \x7b",
    "        return 0.0;",
    "    \x7d",
    "    let yp = pow(min(y, 1.0), PQ_M1);",
    "    return pow((PQ_C1 + PQ_C2 * yp) / (1.0 + PQ_C3 * yp), PQ_M2);",
    "\x7d",
    "",
    "fn hlg_eotf(v: f32) -> f32 \x7b",
    "    if v <= 0.0 \x7b",
    "        return 0.0;",
    "    \x7d",
    "    if v <= 0.5 \x7b",
    "        return v * v / 3.0;",
    "    \x7d",
    "    return (exp((v - HLG_C) / HLG_A) + HLG_B) / 12.0;",
    "\x7d",
    "",
    "fn hlg_oetf(e: f32) -> f32 \x7b",
    "    if e <= 0.0 \x7b",
    "        return 0.0;",
    "    \x7d",
    "    if e <= 1.0 / 12.0 \x7b",
    "        return sqrt(3.0 * e);",
    "    \x7d",
    "    return HLG_A * log(12.0 * e - HLG_B) + HLG_C;",
    "\x7d",
    ""]

def transfers : List String :=
  ["fn to_relative(kind: u32, x: f32) -> f32 \x7b",
    "    switch kind \x7b",
    "        case TF_SRGB: \x7b return srgb_eotf(x); \x7d",
    "        case TF_GAMMA22: \x7b return gamma22_eotf(x); \x7d",
    "        case TF_PQ: \x7b return pq_eotf(x); \x7d",
    "        case TF_HLG: \x7b return hlg_eotf(x); \x7d",
    "        default: \x7b return x; \x7d",
    "    \x7d",
    "\x7d",
    "",
    "fn from_relative(kind: u32, y: f32) -> f32 \x7b",
    "    switch kind \x7b",
    "        case TF_SRGB: \x7b return srgb_oetf(y); \x7d",
    "        case TF_GAMMA22: \x7b return gamma22_oetf(y); \x7d",
    "        case TF_PQ: \x7b return pq_oetf(y); \x7d",
    "        case TF_HLG: \x7b return hlg_oetf(y); \x7d",
    "        default: \x7b return y; \x7d",
    "    \x7d",
    "\x7d",
    "",
    "fn encoded_to_nits(tf: TransferFunction, rgb: vec3<f32>) -> vec3<f32> \x7b",
    "    let range = tf.max_luminance - tf.min_luminance;",
    "    return vec3<f32>(",
    "        to_relative(tf.kind, rgb.r),",
    "        to_relative(tf.kind, rgb.g),",
    "        to_relative(tf.kind, rgb.b),",
    "    ) * range + tf.min_luminance;",
    "\x7d",
    "",
    "fn nits_to_encoded(tf: TransferFunction, nits: vec3<f32>) -> vec3<f32> \x7b",
    "    let rel = (nits - tf.min_luminance) / (tf.max_luminance - tf.min_luminance);",
    "    return vec3<f32>(",
    "        from_relative(tf.kind, rel.r),",
    "        from_relative(tf.kind, rel.g),",
    "        from_relative(tf.kind, rel.b),",
    "    );",
    "\x7d",
    ""]

def toneMapping : List String :=
  ["fn tonemap(i: f32) -> f32 \x7b",
    "    let tm = pipeline.tonemapper;",
    "    let nits = 10000.0 * pq_eotf(i);",
    "    let low = min(nits / tm.added_range, tm.output_reference_luminance);",
    "    var relative = 0.0;",
    "    if tm.input_range > 1.0 \x7b",
    "        relative = clamp((nits / tm.reference_luminance - 1.0) / (tm.input_range - 1.0), "
      ++ "0.0, 1.0);",
    "    \x7d",
    "    let high = log(relative * (E - 1.0) + 1.0) * "
      ++ "(tm.max_output_luminance - tm.output_reference_luminance);",
    "    return pq_oetf((low + high) / 10000.0);",
    "\x7d",
    ""]

/-- The lookup tables as textures, whose samples lie at the centres of texels. -/
def tables : List String :=
  ["fn lut1d_coord(params: vec4<f32>, x: f32) -> f32 \x7b",
    "    let t = clamp((x - params.x) / (params.y - params.x), 0.0, 1.0);",
    "    return (t * (params.z - 1.0) + 0.5) / params.z;",
    "\x7d",
    "",
    "fn apply_lut1d(index: u32, rgb: vec3<f32>) -> vec3<f32> \x7b",
    "    let p = pipeline.lut1d_params[index];",
    "    let u = vec3<f32>(lut1d_coord(p, rgb.r), lut1d_coord(p, rgb.g), lut1d_coord(p, rgb.b));",
    "    if index == 0u \x7b",
    "        return vec3<f32>(",
    "            textureSampleLevel(lut1d_0, lut_sampler, vec2<f32>(u.r, 0.5), 0.0).r,",
    "            textureSampleLevel(lut1d_0, lut_sampler, vec2<f32>(u.g, 0.5), 0.0).g,",
    "            textureSampleLevel(lut1d_0, lut_sampler, vec2<f32>(u.b, 0.5), 0.0).b,",
    "        );",
    "    \x7d",
    "    return vec3<f32>(",
    "        textureSampleLevel(lut1d_1, lut_sampler, vec2<f32>(u.r, 0.5), 0.0).r,",
    "        textureSampleLevel(lut1d_1, lut_sampler, vec2<f32>(u.g, 0.5), 0.0).g,",
    "        textureSampleLevel(lut1d_1, lut_sampler, vec2<f32>(u.b, 0.5), 0.0).b,",
    "    );",
    "\x7d",
    "",
    "fn apply_lut3d(rgb: vec3<f32>) -> vec3<f32> \x7b",
    "    let size = pipeline.lut3d_params.x;",
    "    let uvw = (clamp(rgb, vec3<f32>(0.0), vec3<f32>(1.0)) * (size - 1.0) + 0.5) / size;",
    "    return textureSampleLevel(lut3d, lut_sampler, uvw, 0.0).rgb;",
    "\x7d",
    ""]

def entryPoint : List String :=
  ["fn apply_color_pipeline(rgb_in: vec3<f32>) -> vec3<f32> \x7b",
    "    var rgb = rgb_in;",
    "    for (var i = 0u; i < pipeline.op_count; i = i + 1u) \x7b",
    "        let op = pipeline.ops[i];",
    "        switch op.kind \x7b",
    "            case OP_MATRIX: \x7b",
    "                rgb = (pipeline.matrices[op.index] * vec4<f32>(rgb, 1.0)).rgb;",
    "            \x7d",
    "            case OP_TRANSFER_FUNCTION: \x7b",
    "                rgb = encoded_to_nits(pipeline.transfer_functions[op.index], rgb);",
    "            \x7d",
    "            case OP_INVERSE_TRANSFER_FUNCTION: \x7b",
    "                rgb = nits_to_encoded(pipeline.transfer_functions[op.index], rgb);",
    "            \x7d",
    "            case OP_TONEMAPPER: \x7b",
    "                rgb = vec3<f32>(tonemap(rgb.x), rgb.y, rgb.z);",
    "            \x7d",
    "            case OP_LUT1D: \x7b",
    "                rgb = apply_lut1d(op.index, rgb);",
    "            \x7d",
    "            case OP_LUT3D: \x7b",
    "                rgb = apply_lut3d(rgb);",
    "            \x7d",
    "            default: \x7b\x7d",
    "        \x7d",
    "    \x7d",
    "    return rgb;",
    "\x7d"]

/-- The text of the shader, which begins with a blank line and ends with a line break. -/
def source : String :=
  "\n".intercalate
    ("" :: structures ++ bindings ++ codes ++ constants ++ curves ++ transfers ++ toneMapping
      ++ tables ++ entryPoint) ++ "\n"

end DisplayColor.Shader
