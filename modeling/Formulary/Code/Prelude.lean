namespace Formulary.Code

def preludeLines : List String :=
  ["#![allow(unused_parens, unused_variables, unused_imports, dead_code)]",
    "#![allow(non_snake_case, arithmetic_overflow, clippy::all)]",
    "",
    "use std::io::\x7bBufWriter, Write\x7d;",
    "",
    "/// `W`-bit vector stored in the low bits of a `u64`",
    "#[derive(Clone, Copy, Debug, PartialEq, Eq)]",
    "struct Bv<const W: u32>(u64);",
    "",
    "impl<const W: u32> Bv<W> \x7b",
    "    const MASK: u64 = if W >= 64 \x7b u64::MAX \x7d else \x7b (1u64 << W) - 1 \x7d;",
    "",
    "    #[inline(always)]",
    "    const fn new(v: u64) -> Self \x7b",
    "        Bv(v & Self::MASK)",
    "    \x7d",
    "",
    "    #[inline(always)]",
    "    fn from_unsigned(v: u64) -> Self \x7b",
    "        Self::new(v)",
    "    \x7d",
    "",
    "    #[inline(always)]",
    "    fn from_signed(v: i64) -> Self \x7b",
    "        Self::new(v as u64)",
    "    \x7d",
    "",
    "    #[inline(always)]",
    "    fn unsigned(self) -> u64 \x7b",
    "        self.0",
    "    \x7d",
    "",
    "    #[inline(always)]",
    "    fn signed(self) -> i64 \x7b",
    "        let s = 64 - W;",
    "        ((self.0 << s) as i64) >> s",
    "    \x7d",
    "\x7d",
    "",
    "impl<const W: u32> std::ops::BitAnd for Bv<W> \x7b",
    "    type Output = Self;",
    "    #[inline(always)]",
    "    fn bitand(self, rhs: Self) -> Self \x7b",
    "        Bv(self.0 & rhs.0)",
    "    \x7d",
    "\x7d",
    "",
    "impl<const W: u32> std::ops::BitOr for Bv<W> \x7b",
    "    type Output = Self;",
    "    #[inline(always)]",
    "    fn bitor(self, rhs: Self) -> Self \x7b",
    "        Bv(self.0 | rhs.0)",
    "    \x7d",
    "\x7d",
    "",
    "impl<const W: u32> std::ops::BitXor for Bv<W> \x7b",
    "    type Output = Self;",
    "    #[inline(always)]",
    "    fn bitxor(self, rhs: Self) -> Self \x7b",
    "        Bv(self.0 ^ rhs.0)",
    "    \x7d",
    "\x7d",
    "",
    "impl<const W: u32> std::ops::Not for Bv<W> \x7b",
    "    type Output = Self;",
    "    #[inline(always)]",
    "    fn not(self) -> Self \x7b",
    "        Self::new(!self.0)",
    "    \x7d",
    "\x7d",
    "",
    "impl<const W: u32> std::ops::Neg for Bv<W> \x7b",
    "    type Output = Self;",
    "    #[inline(always)]",
    "    fn neg(self) -> Self \x7b",
    "        Self::new(self.0.wrapping_neg())",
    "    \x7d",
    "\x7d",
    "",
    "impl<const W: u32> std::ops::Shl for Bv<W> \x7b",
    "    type Output = Self;",
    "    #[inline(always)]",
    "    fn shl(self, rhs: Self) -> Self \x7b",
    "        if rhs.0 >= W as u64 \x7b Bv(0) \x7d else \x7b Self::new(self.0 << rhs.0) \x7d",
    "    \x7d",
    "\x7d",
    "",
    "impl<const W: u32> std::ops::Shr for Bv<W> \x7b",
    "    type Output = Self;",
    "    #[inline(always)]",
    "    fn shr(self, rhs: Self) -> Self \x7b",
    "        if rhs.0 >= W as u64 \x7b Bv(0) \x7d else \x7b Bv(self.0 >> rhs.0) \x7d",
    "    \x7d",
    "\x7d",
    "",
    "#[inline(always)]",
    "fn bv_ashr<const W: u32>(a: Bv<W>, b: Bv<W>) -> Bv<W> \x7b",
    "    Bv::from_signed(a.signed() >> b.unsigned().min(63))",
    "\x7d",
    "",
    "#[inline(always)]",
    "fn bv_sdiv<const W: u32>(a: Bv<W>, b: Bv<W>) -> Bv<W> \x7b",
    "    let (n, d) = (a.signed(), b.signed());",
    "    if d == 0 \x7b",
    "        Bv::from_signed(if n < 0 \x7b 1 \x7d else \x7b -1 \x7d)",
    "    \x7d else \x7b",
    "        Bv::from_signed(n.wrapping_div(d))",
    "    \x7d",
    "\x7d",
    "",
    "/// Bits `start..=end` of `a`, bit 0 being the least significant",
    "#[inline(always)]",
    "fn bv_extract<const OUT: u32, const IN: u32>(a: Bv<IN>, start: u32, end: u32) -> Bv<OUT> \x7b",
    "    debug_assert!(start <= end && end < IN && end - start + 1 == OUT);",
    "    Bv::new(a.0 >> start)",
    "\x7d",
    "",
    "/// `hi` occupies the most significant bits",
    "#[inline(always)]",
    "fn bv_concat<const HI: u32, const LO: u32, const OUT: u32>(hi: Bv<HI>, lo: Bv<LO>) -> Bv<OUT> \x7b",
    "    debug_assert!(HI + LO == OUT);",
    "    Bv::new((hi.0 << LO) | lo.0)",
    "\x7d",
    "",
    "#[inline(always)]",
    "fn int_div(a: i64, b: i64) -> i64 \x7b",
    "    a.checked_div_euclid(b).unwrap_or(0)",
    "\x7d",
    "",
    "/// Text codec for pattern columns and result rows",
    "trait Cell: Sized \x7b",
    "    fn parse_cell(tok: &str) -> Result<Self, String>;",
    "    fn render(&self) -> String;",
    "\x7d",
    "",
    "impl Cell for bool \x7b",
    "    fn parse_cell(tok: &str) -> Result<Self, String> \x7b",
    "        match tok \x7b",
    "            \"1\" | \"true\" => Ok(true),",
    "            \"0\" | \"false\" => Ok(false),",
    "            _ => Err(format!(\"invalid bool '\x7b\x7d'\", tok)),",
    "        \x7d",
    "    \x7d",
    "    fn render(&self) -> String \x7b",
    "        if *self \x7b \"1\".to_string() \x7d else \x7b \"0\".to_string() \x7d",
    "    \x7d",
    "\x7d",
    "",
    "impl Cell for i64 \x7b",
    "    fn parse_cell(tok: &str) -> Result<Self, String> \x7b",
    "        tok.parse().map_err(|e| format!(\"invalid int '\x7b\x7d': \x7b\x7d\", tok, e))",
    "    \x7d",
    "    fn render(&self) -> String \x7b",
    "        self.to_string()",
    "    \x7d",
    "\x7d",
    "",
    "impl Cell for f64 \x7b",
    "    fn parse_cell(tok: &str) -> Result<Self, String> \x7b",
    "        tok.parse().map_err(|e| format!(\"invalid real '\x7b\x7d': \x7b\x7d\", tok, e))",
    "    \x7d",
    "    fn render(&self) -> String \x7b",
    "        self.to_string()",
    "    \x7d",
    "\x7d",
    "",
    "impl<const W: u32> Cell for Bv<W> \x7b",
    "    fn parse_cell(tok: &str) -> Result<Self, String> \x7b",
    "        tok.parse::<u64>()",
    "            .map(Bv::new)",
    "            .map_err(|e| format!(\"invalid bit-vector '\x7b\x7d': \x7b\x7d\", tok, e))",
    "    \x7d",
    "    fn render(&self) -> String \x7b",
    "        self.0.to_string()",
    "    \x7d",
    "\x7d",
    "",
    "fn next_cell<T: Cell>(",
    "    tokens: &mut std::str::SplitWhitespace<'_>,",
    "    row: usize,",
    "    column: usize,",
    ") -> Result<T, String> \x7b",
    "    let tok = tokens",
    "        .next()",
    "        .ok_or_else(|| format!(\"row \x7b\x7d: missing column \x7b\x7d\", row, column))?;",
    "    T::parse_cell(tok).map_err(|e| format!(\"row \x7b\x7d: column \x7b\x7d: \x7b\x7d\", row, column, e))",
    "\x7d"]

/-- The lines of a text, each ended by a line feed. -/
def unlines (lines : List String) : String := String.join (lines.map (· ++ "\n"))

def prelude : String := unlines preludeLines

end Formulary.Code
