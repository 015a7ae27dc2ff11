import DocBase.Unicode.CodePoints

/-! Characters that differ in case alone, by the simple case foldings of Unicode 16. -/
namespace DocBase.Unicode

/-- Rows of `first last step partner`: every `step`-th code point from `first` to `last` folds
together with the one as far from `partner` as it is from `first`. -/
def casePairs : List (Nat × Nat × Nat × Nat) :=
  [(0x41,0x4a,1,0x61), (0x4c,0x5a,2,0x6c), (0x4d,0x51,2,0x6d), (0x55,0x59,2,0x75),
   (0xc0,0xde,2,0xe0), (0xc1,0xc3,2,0xe1), (0xc7,0xd5,2,0xe7), (0xd9,0xdd,2,0xf9),
   (0xdf,0xdf,1,0x1e9e), (0xff,0xff,1,0x178), (0x100,0x12e,2,0x101), (0x132,0x136,2,0x133),
   (0x139,0x147,2,0x13a), (0x14a,0x176,2,0x14b), (0x179,0x17d,2,0x17a), (0x180,0x180,1,0x243),
   (0x181,0x181,1,0x253), (0x182,0x184,2,0x183), (0x186,0x186,1,0x254), (0x187,0x187,1,0x188),
   (0x189,0x18a,1,0x256), (0x18b,0x18b,1,0x18c), (0x18e,0x18e,1,0x1dd), (0x18f,0x18f,1,0x259),
   (0x190,0x190,1,0x25b), (0x191,0x191,1,0x192), (0x193,0x193,1,0x260), (0x194,0x194,1,0x263),
   (0x195,0x195,1,0x1f6), (0x196,0x196,1,0x269), (0x197,0x197,1,0x268), (0x198,0x198,1,0x199),
   (0x19a,0x19a,1,0x23d), (0x19b,0x19b,1,0xa7dc), (0x19c,0x19c,1,0x26f), (0x19d,0x19d,1,0x272),
   (0x19e,0x19e,1,0x220), (0x19f,0x19f,1,0x275), (0x1a0,0x1a4,2,0x1a1), (0x1a6,0x1a6,1,0x280),
   (0x1a7,0x1a7,1,0x1a8), (0x1a9,0x1a9,1,0x283), (0x1ac,0x1ac,1,0x1ad), (0x1ae,0x1ae,1,0x288),
   (0x1af,0x1af,1,0x1b0), (0x1b1,0x1b2,1,0x28a), (0x1b3,0x1b5,2,0x1b4), (0x1b7,0x1b7,1,0x292),
   (0x1b8,0x1b8,1,0x1b9), (0x1bc,0x1bc,1,0x1bd), (0x1bf,0x1bf,1,0x1f7), (0x1cd,0x1db,2,0x1ce),
   (0x1de,0x1ee,2,0x1df), (0x1f4,0x1f4,1,0x1f5), (0x1f8,0x21e,2,0x1f9), (0x222,0x232,2,0x223),
   (0x23a,0x23a,1,0x2c65), (0x23b,0x23b,1,0x23c), (0x23e,0x23e,1,0x2c66), (0x23f,0x240,1,0x2c7e),
   (0x241,0x241,1,0x242), (0x244,0x244,1,0x289), (0x245,0x245,1,0x28c), (0x246,0x24e,2,0x247),
   (0x250,0x250,1,0x2c6f), (0x251,0x251,1,0x2c6d), (0x252,0x252,1,0x2c70), (0x25c,0x25c,1,0xa7ab),
   (0x261,0x261,1,0xa7ac), (0x264,0x264,1,0xa7cb), (0x265,0x265,1,0xa78d), (0x266,0x266,1,0xa7aa),
   (0x26a,0x26a,1,0xa7ae), (0x26b,0x26b,1,0x2c62), (0x26c,0x26c,1,0xa7ad), (0x271,0x271,1,0x2c6e),
   (0x27d,0x27d,1,0x2c64), (0x282,0x282,1,0xa7c5), (0x287,0x287,1,0xa7b1), (0x29d,0x29d,1,0xa7b2),
   (0x29e,0x29e,1,0xa7b0), (0x370,0x372,2,0x371), (0x376,0x376,1,0x377), (0x37b,0x37d,1,0x3fd),
   (0x37f,0x37f,1,0x3f3), (0x386,0x386,1,0x3ac), (0x388,0x38a,1,0x3ad), (0x38c,0x38c,1,0x3cc),
   (0x38e,0x38f,1,0x3cd), (0x390,0x390,1,0x1fd3), (0x391,0x393,2,0x3b1), (0x394,0x396,2,0x3b4),
   (0x397,0x397,1,0x3b7), (0x39b,0x39f,2,0x3bb), (0x39e,0x39e,1,0x3be), (0x3a4,0x3a5,1,0x3c4),
   (0x3a7,0x3a8,1,0x3c7), (0x3aa,0x3ab,1,0x3ca), (0x3b0,0x3b0,1,0x1fe3), (0x3cf,0x3cf,1,0x3d7),
   (0x3d8,0x3ee,2,0x3d9), (0x3f2,0x3f2,1,0x3f9), (0x3f7,0x3f7,1,0x3f8), (0x3fa,0x3fa,1,0x3fb),
   (0x400,0x40f,1,0x450), (0x410,0x411,1,0x430), (0x413,0x41f,2,0x433), (0x416,0x41c,2,0x436),
   (0x420,0x420,1,0x440), (0x423,0x429,1,0x443), (0x42b,0x42f,1,0x44b), (0x460,0x460,1,0x461),
   (0x464,0x480,2,0x465), (0x48a,0x4be,2,0x48b), (0x4c0,0x4c0,1,0x4cf), (0x4c1,0x4cd,2,0x4c2),
   (0x4d0,0x52e,2,0x4d1), (0x531,0x556,1,0x561), (0x10a0,0x10c5,1,0x2d00), (0x10c7,0x10c7,1,0x2d27),
   (0x10cd,0x10cd,1,0x2d2d), (0x10d0,0x10fa,1,0x1c90), (0x10fd,0x10ff,1,0x1cbd),
   (0x13a0,0x13ef,1,0xab70), (0x13f0,0x13f5,1,0x13f8), (0x1c89,0x1c89,1,0x1c8a),
   (0x1d79,0x1d79,1,0xa77d), (0x1d7d,0x1d7d,1,0x2c63), (0x1d8e,0x1d8e,1,0xa7c6),
   (0x1e00,0x1e5e,2,0x1e01), (0x1e62,0x1e94,2,0x1e63), (0x1ea0,0x1efe,2,0x1ea1),
   (0x1f00,0x1f07,1,0x1f08), (0x1f10,0x1f15,1,0x1f18), (0x1f20,0x1f27,1,0x1f28),
   (0x1f30,0x1f37,1,0x1f38), (0x1f40,0x1f45,1,0x1f48), (0x1f51,0x1f57,2,0x1f59),
   (0x1f60,0x1f67,1,0x1f68), (0x1f70,0x1f71,1,0x1fba), (0x1f72,0x1f75,1,0x1fc8),
   (0x1f76,0x1f77,1,0x1fda), (0x1f78,0x1f79,1,0x1ff8), (0x1f7a,0x1f7b,1,0x1fea),
   (0x1f7c,0x1f7d,1,0x1ffa), (0x1f80,0x1f87,1,0x1f88), (0x1f90,0x1f97,1,0x1f98),
   (0x1fa0,0x1fa7,1,0x1fa8), (0x1fb0,0x1fb1,1,0x1fb8), (0x1fb3,0x1fb3,1,0x1fbc),
   (0x1fc3,0x1fc3,1,0x1fcc), (0x1fd0,0x1fd1,1,0x1fd8), (0x1fe0,0x1fe1,1,0x1fe8),
   (0x1fe5,0x1fe5,1,0x1fec), (0x1ff3,0x1ff3,1,0x1ffc), (0x2132,0x2132,1,0x214e),
   (0x2160,0x216f,1,0x2170), (0x2183,0x2183,1,0x2184), (0x24b6,0x24cf,1,0x24d0),
   (0x2c00,0x2c2f,1,0x2c30), (0x2c60,0x2c60,1,0x2c61), (0x2c67,0x2c6b,2,0x2c68),
   (0x2c72,0x2c72,1,0x2c73), (0x2c75,0x2c75,1,0x2c76), (0x2c80,0x2ce2,2,0x2c81),
   (0x2ceb,0x2ced,2,0x2cec), (0x2cf2,0x2cf2,1,0x2cf3), (0xa640,0xa648,2,0xa641),
   (0xa64c,0xa66c,2,0xa64d), (0xa680,0xa69a,2,0xa681), (0xa722,0xa72e,2,0xa723),
   (0xa732,0xa76e,2,0xa733), (0xa779,0xa77b,2,0xa77a), (0xa77e,0xa786,2,0xa77f),
   (0xa78b,0xa78b,1,0xa78c), (0xa790,0xa792,2,0xa791), (0xa794,0xa794,1,0xa7c4),
   (0xa796,0xa7a8,2,0xa797), (0xa7b3,0xa7b3,1,0xab53), (0xa7b4,0xa7c2,2,0xa7b5),
   (0xa7c7,0xa7c9,2,0xa7c8), (0xa7cc,0xa7cc,1,0xa7cd), (0xa7d0,0xa7d0,1,0xa7d1),
   (0xa7d6,0xa7da,2,0xa7d7), (0xa7f5,0xa7f5,1,0xa7f6), (0xfb05,0xfb05,1,0xfb06),
   (0xff21,0xff3a,1,0xff41), (0x10400,0x10427,1,0x10428), (0x104b0,0x104d3,1,0x104d8),
   (0x10570,0x10594,2,0x10597), (0x10571,0x10579,2,0x10598), (0x1057d,0x10589,2,0x105a4),
   (0x1058d,0x10591,2,0x105b4), (0x10595,0x10595,1,0x105bc), (0x10c80,0x10cb2,1,0x10cc0),
   (0x10d50,0x10d65,1,0x10d70), (0x118a0,0x118bf,1,0x118c0), (0x16e40,0x16e5f,1,0x16e60),
   (0x1e900,0x1e921,1,0x1e922)]

/-- Families of three characters and more. -/
def caseFamilies : List (List Nat) :=
  [[0x4b,0x6b,0x212a], [0x53,0x73,0x17f], [0xc5,0xe5,0x212b], [0x1c4,0x1c5,0x1c6],
   [0x1c7,0x1c8,0x1c9], [0x1ca,0x1cb,0x1cc], [0x1f1,0x1f2,0x1f3], [0x345,0x399,0x3b9,0x1fbe],
   [0xb5,0x39c,0x3bc], [0x392,0x3b2,0x3d0], [0x395,0x3b5,0x3f5], [0x398,0x3b8,0x3d1,0x3f4],
   [0x39a,0x3ba,0x3f0], [0x3a0,0x3c0,0x3d6], [0x3a1,0x3c1,0x3f1], [0x3a3,0x3c2,0x3c3],
   [0x3a6,0x3c6,0x3d5], [0x3a9,0x3c9,0x2126], [0x412,0x432,0x1c80], [0x414,0x434,0x1c81],
   [0x41e,0x43e,0x1c82], [0x421,0x441,0x1c83], [0x422,0x442,0x1c84,0x1c85], [0x42a,0x44a,0x1c86],
   [0x462,0x463,0x1c87], [0x1e60,0x1e61,0x1e9b], [0x1c88,0xa64a,0xa64b]]

/-- The pairs of code points that differ in case alone. -/
def casePairings : List (Nat × Nat) :=
  casePairs.flatMap fun (first, last, step, partner) =>
    (List.range ((last - first) / step + 1)).map fun i => (first + i * step, partner + i * step)

/-- The set together with every code point that differs from a member in case alone. -/
def caseClosure (s : CodePoints) : CodePoints :=
  let paired := casePairings.flatMap fun (a, b) =>
    (if s.contains a then [(b, b)] else []) ++ (if s.contains b then [(a, a)] else [])
  let related := (caseFamilies.filter (·.any s.contains)).flatMap (·.map fun n => (n, n))
  if paired.isEmpty && related.isEmpty then s else s.union (paired ++ related)

end DocBase.Unicode
