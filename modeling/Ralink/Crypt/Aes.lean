import Ralink.Lib.Cipher
import Ralink.Lib.XorSpace

/-! Two codings of one cipher: `crypt_aes.c` keeps the state as a square, multiplies by tables and
expands the whole key first, `cmm_aes.c` keeps the bytes of a block in their order, multiplies bit
by bit and makes every round key of the one before. -/
namespace Ralink.Crypt

open XorSpace Cipher

abbrev AES_BLOCK_SIZES : Nat := 16

def aes_rcon : List UInt32 := [
  0x00000000, 0x01000000, 0x02000000, 0x04000000,
  0x08000000, 0x10000000, 0x20000000, 0x40000000,
  0x80000000, 0x1B000000, 0x36000000]

def aes_sbox_enc : List UInt8 := [
  0x63, 0x7c, 0x77, 0x7b, 0xf2, 0x6b, 0x6f, 0xc5, 0x30, 0x01, 0x67, 0x2b, 0xfe, 0xd7, 0xab, 0x76,
  0xca, 0x82, 0xc9, 0x7d, 0xfa, 0x59, 0x47, 0xf0, 0xad, 0xd4, 0xa2, 0xaf, 0x9c, 0xa4, 0x72, 0xc0,
  0xb7, 0xfd, 0x93, 0x26, 0x36, 0x3f, 0xf7, 0xcc, 0x34, 0xa5, 0xe5, 0xf1, 0x71, 0xd8, 0x31, 0x15,
  0x04, 0xc7, 0x23, 0xc3, 0x18, 0x96, 0x05, 0x9a, 0x07, 0x12, 0x80, 0xe2, 0xeb, 0x27, 0xb2, 0x75,
  0x09, 0x83, 0x2c, 0x1a, 0x1b, 0x6e, 0x5a, 0xa0, 0x52, 0x3b, 0xd6, 0xb3, 0x29, 0xe3, 0x2f, 0x84,
  0x53, 0xd1, 0x00, 0xed, 0x20, 0xfc, 0xb1, 0x5b, 0x6a, 0xcb, 0xbe, 0x39, 0x4a, 0x4c, 0x58, 0xcf,
  0xd0, 0xef, 0xaa, 0xfb, 0x43, 0x4d, 0x33, 0x85, 0x45, 0xf9, 0x02, 0x7f, 0x50, 0x3c, 0x9f, 0xa8,
  0x51, 0xa3, 0x40, 0x8f, 0x92, 0x9d, 0x38, 0xf5, 0xbc, 0xb6, 0xda, 0x21, 0x10, 0xff, 0xf3, 0xd2,
  0xcd, 0x0c, 0x13, 0xec, 0x5f, 0x97, 0x44, 0x17, 0xc4, 0xa7, 0x7e, 0x3d, 0x64, 0x5d, 0x19, 0x73,
  0x60, 0x81, 0x4f, 0xdc, 0x22, 0x2a, 0x90, 0x88, 0x46, 0xee, 0xb8, 0x14, 0xde, 0x5e, 0x0b, 0xdb,
  0xe0, 0x32, 0x3a, 0x0a, 0x49, 0x06, 0x24, 0x5c, 0xc2, 0xd3, 0xac, 0x62, 0x91, 0x95, 0xe4, 0x79,
  0xe7, 0xc8, 0x37, 0x6d, 0x8d, 0xd5, 0x4e, 0xa9, 0x6c, 0x56, 0xf4, 0xea, 0x65, 0x7a, 0xae, 0x08,
  0xba, 0x78, 0x25, 0x2e, 0x1c, 0xa6, 0xb4, 0xc6, 0xe8, 0xdd, 0x74, 0x1f, 0x4b, 0xbd, 0x8b, 0x8a,
  0x70, 0x3e, 0xb5, 0x66, 0x48, 0x03, 0xf6, 0x0e, 0x61, 0x35, 0x57, 0xb9, 0x86, 0xc1, 0x1d, 0x9e,
  0xe1, 0xf8, 0x98, 0x11, 0x69, 0xd9, 0x8e, 0x94, 0x9b, 0x1e, 0x87, 0xe9, 0xce, 0x55, 0x28, 0xdf,
  0x8c, 0xa1, 0x89, 0x0d, 0xbf, 0xe6, 0x42, 0x68, 0x41, 0x99, 0x2d, 0x0f, 0xb0, 0x54, 0xbb, 0x16]

def aes_sbox_dec : List UInt8 := [
  0x52, 0x09, 0x6a, 0xd5, 0x30, 0x36, 0xa5, 0x38, 0xbf, 0x40, 0xa3, 0x9e, 0x81, 0xf3, 0xd7, 0xfb,
  0x7c, 0xe3, 0x39, 0x82, 0x9b, 0x2f, 0xff, 0x87, 0x34, 0x8e, 0x43, 0x44, 0xc4, 0xde, 0xe9, 0xcb,
  0x54, 0x7b, 0x94, 0x32, 0xa6, 0xc2, 0x23, 0x3d, 0xee, 0x4c, 0x95, 0x0b, 0x42, 0xfa, 0xc3, 0x4e,
  0x08, 0x2e, 0xa1, 0x66, 0x28, 0xd9, 0x24, 0xb2, 0x76, 0x5b, 0xa2, 0x49, 0x6d, 0x8b, 0xd1, 0x25,
  0x72, 0xf8, 0xf6, 0x64, 0x86, 0x68, 0x98, 0x16, 0xd4, 0xa4, 0x5c, 0xcc, 0x5d, 0x65, 0xb6, 0x92,
  0x6c, 0x70, 0x48, 0x50, 0xfd, 0xed, 0xb9, 0xda, 0x5e, 0x15, 0x46, 0x57, 0xa7, 0x8d, 0x9d, 0x84,
  0x90, 0xd8, 0xab, 0x00, 0x8c, 0xbc, 0xd3, 0x0a, 0xf7, 0xe4, 0x58, 0x05, 0xb8, 0xb3, 0x45, 0x06,
  0xd0, 0x2c, 0x1e, 0x8f, 0xca, 0x3f, 0x0f, 0x02, 0xc1, 0xaf, 0xbd, 0x03, 0x01, 0x13, 0x8a, 0x6b,
  0x3a, 0x91, 0x11, 0x41, 0x4f, 0x67, 0xdc, 0xea, 0x97, 0xf2, 0xcf, 0xce, 0xf0, 0xb4, 0xe6, 0x73,
  0x96, 0xac, 0x74, 0x22, 0xe7, 0xad, 0x35, 0x85, 0xe2, 0xf9, 0x37, 0xe8, 0x1c, 0x75, 0xdf, 0x6e,
  0x47, 0xf1, 0x1a, 0x71, 0x1d, 0x29, 0xc5, 0x89, 0x6f, 0xb7, 0x62, 0x0e, 0xaa, 0x18, 0xbe, 0x1b,
  0xfc, 0x56, 0x3e, 0x4b, 0xc6, 0xd2, 0x79, 0x20, 0x9a, 0xdb, 0xc0, 0xfe, 0x78, 0xcd, 0x5a, 0xf4,
  0x1f, 0xdd, 0xa8, 0x33, 0x88, 0x07, 0xc7, 0x31, 0xb1, 0x12, 0x10, 0x59, 0x27, 0x80, 0xec, 0x5f,
  0x60, 0x51, 0x7f, 0xa9, 0x19, 0xb5, 0x4a, 0x0d, 0x2d, 0xe5, 0x7a, 0x9f, 0x93, 0xc9, 0x9c, 0xef,
  0xa0, 0xe0, 0x3b, 0x4d, 0xae, 0x2a, 0xf5, 0xb0, 0xc8, 0xeb, 0xbb, 0x3c, 0x83, 0x53, 0x99, 0x61,
  0x17, 0x2b, 0x04, 0x7e, 0xba, 0x77, 0xd6, 0x26, 0xe1, 0x69, 0x14, 0x63, 0x55, 0x21, 0x0c, 0x7d]

def aes_mul_2 : List UInt8 := [
  0x00, 0x02, 0x04, 0x06, 0x08, 0x0a, 0x0c, 0x0e, 0x10, 0x12, 0x14, 0x16, 0x18, 0x1a, 0x1c, 0x1e,
  0x20, 0x22, 0x24, 0x26, 0x28, 0x2a, 0x2c, 0x2e, 0x30, 0x32, 0x34, 0x36, 0x38, 0x3a, 0x3c, 0x3e,
  0x40, 0x42, 0x44, 0x46, 0x48, 0x4a, 0x4c, 0x4e, 0x50, 0x52, 0x54, 0x56, 0x58, 0x5a, 0x5c, 0x5e,
  0x60, 0x62, 0x64, 0x66, 0x68, 0x6a, 0x6c, 0x6e, 0x70, 0x72, 0x74, 0x76, 0x78, 0x7a, 0x7c, 0x7e,
  0x80, 0x82, 0x84, 0x86, 0x88, 0x8a, 0x8c, 0x8e, 0x90, 0x92, 0x94, 0x96, 0x98, 0x9a, 0x9c, 0x9e,
  0xa0, 0xa2, 0xa4, 0xa6, 0xa8, 0xaa, 0xac, 0xae, 0xb0, 0xb2, 0xb4, 0xb6, 0xb8, 0xba, 0xbc, 0xbe,
  0xc0, 0xc2, 0xc4, 0xc6, 0xc8, 0xca, 0xcc, 0xce, 0xd0, 0xd2, 0xd4, 0xd6, 0xd8, 0xda, 0xdc, 0xde,
  0xe0, 0xe2, 0xe4, 0xe6, 0xe8, 0xea, 0xec, 0xee, 0xf0, 0xf2, 0xf4, 0xf6, 0xf8, 0xfa, 0xfc, 0xfe,
  0x1b, 0x19, 0x1f, 0x1d, 0x13, 0x11, 0x17, 0x15, 0x0b, 0x09, 0x0f, 0x0d, 0x03, 0x01, 0x07, 0x05,
  0x3b, 0x39, 0x3f, 0x3d, 0x33, 0x31, 0x37, 0x35, 0x2b, 0x29, 0x2f, 0x2d, 0x23, 0x21, 0x27, 0x25,
  0x5b, 0x59, 0x5f, 0x5d, 0x53, 0x51, 0x57, 0x55, 0x4b, 0x49, 0x4f, 0x4d, 0x43, 0x41, 0x47, 0x45,
  0x7b, 0x79, 0x7f, 0x7d, 0x73, 0x71, 0x77, 0x75, 0x6b, 0x69, 0x6f, 0x6d, 0x63, 0x61, 0x67, 0x65,
  0x9b, 0x99, 0x9f, 0x9d, 0x93, 0x91, 0x97, 0x95, 0x8b, 0x89, 0x8f, 0x8d, 0x83, 0x81, 0x87, 0x85,
  0xbb, 0xb9, 0xbf, 0xbd, 0xb3, 0xb1, 0xb7, 0xb5, 0xab, 0xa9, 0xaf, 0xad, 0xa3, 0xa1, 0xa7, 0xa5,
  0xdb, 0xd9, 0xdf, 0xdd, 0xd3, 0xd1, 0xd7, 0xd5, 0xcb, 0xc9, 0xcf, 0xcd, 0xc3, 0xc1, 0xc7, 0xc5,
  0xfb, 0xf9, 0xff, 0xfd, 0xf3, 0xf1, 0xf7, 0xf5, 0xeb, 0xe9, 0xef, 0xed, 0xe3, 0xe1, 0xe7, 0xe5]

def aes_mul_3 : List UInt8 := [
  0x00, 0x03, 0x06, 0x05, 0x0c, 0x0f, 0x0a, 0x09, 0x18, 0x1b, 0x1e, 0x1d, 0x14, 0x17, 0x12, 0x11,
  0x30, 0x33, 0x36, 0x35, 0x3c, 0x3f, 0x3a, 0x39, 0x28, 0x2b, 0x2e, 0x2d, 0x24, 0x27, 0x22, 0x21,
  0x60, 0x63, 0x66, 0x65, 0x6c, 0x6f, 0x6a, 0x69, 0x78, 0x7b, 0x7e, 0x7d, 0x74, 0x77, 0x72, 0x71,
  0x50, 0x53, 0x56, 0x55, 0x5c, 0x5f, 0x5a, 0x59, 0x48, 0x4b, 0x4e, 0x4d, 0x44, 0x47, 0x42, 0x41,
  0xc0, 0xc3, 0xc6, 0xc5, 0xcc, 0xcf, 0xca, 0xc9, 0xd8, 0xdb, 0xde, 0xdd, 0xd4, 0xd7, 0xd2, 0xd1,
  0xf0, 0xf3, 0xf6, 0xf5, 0xfc, 0xff, 0xfa, 0xf9, 0xe8, 0xeb, 0xee, 0xed, 0xe4, 0xe7, 0xe2, 0xe1,
  0xa0, 0xa3, 0xa6, 0xa5, 0xac, 0xaf, 0xaa, 0xa9, 0xb8, 0xbb, 0xbe, 0xbd, 0xb4, 0xb7, 0xb2, 0xb1,
  0x90, 0x93, 0x96, 0x95, 0x9c, 0x9f, 0x9a, 0x99, 0x88, 0x8b, 0x8e, 0x8d, 0x84, 0x87, 0x82, 0x81,
  0x9b, 0x98, 0x9d, 0x9e, 0x97, 0x94, 0x91, 0x92, 0x83, 0x80, 0x85, 0x86, 0x8f, 0x8c, 0x89, 0x8a,
  0xab, 0xa8, 0xad, 0xae, 0xa7, 0xa4, 0xa1, 0xa2, 0xb3, 0xb0, 0xb5, 0xb6, 0xbf, 0xbc, 0xb9, 0xba,
  0xfb, 0xf8, 0xfd, 0xfe, 0xf7, 0xf4, 0xf1, 0xf2, 0xe3, 0xe0, 0xe5, 0xe6, 0xef, 0xec, 0xe9, 0xea,
  0xcb, 0xc8, 0xcd, 0xce, 0xc7, 0xc4, 0xc1, 0xc2, 0xd3, 0xd0, 0xd5, 0xd6, 0xdf, 0xdc, 0xd9, 0xda,
  0x5b, 0x58, 0x5d, 0x5e, 0x57, 0x54, 0x51, 0x52, 0x43, 0x40, 0x45, 0x46, 0x4f, 0x4c, 0x49, 0x4a,
  0x6b, 0x68, 0x6d, 0x6e, 0x67, 0x64, 0x61, 0x62, 0x73, 0x70, 0x75, 0x76, 0x7f, 0x7c, 0x79, 0x7a,
  0x3b, 0x38, 0x3d, 0x3e, 0x37, 0x34, 0x31, 0x32, 0x23, 0x20, 0x25, 0x26, 0x2f, 0x2c, 0x29, 0x2a,
  0x0b, 0x08, 0x0d, 0x0e, 0x07, 0x04, 0x01, 0x02, 0x13, 0x10, 0x15, 0x16, 0x1f, 0x1c, 0x19, 0x1a]

def aes_mul_9 : List UInt8 := [
  0x00, 0x09, 0x12, 0x1b, 0x24, 0x2d, 0x36, 0x3f, 0x48, 0x41, 0x5a, 0x53, 0x6c, 0x65, 0x7e, 0x77,
  0x90, 0x99, 0x82, 0x8b, 0xb4, 0xbd, 0xa6, 0xaf, 0xd8, 0xd1, 0xca, 0xc3, 0xfc, 0xf5, 0xee, 0xe7,
  0x3b, 0x32, 0x29, 0x20, 0x1f, 0x16, 0x0d, 0x04, 0x73, 0x7a, 0x61, 0x68, 0x57, 0x5e, 0x45, 0x4c,
  0xab, 0xa2, 0xb9, 0xb0, 0x8f, 0x86, 0x9d, 0x94, 0xe3, 0xea, 0xf1, 0xf8, 0xc7, 0xce, 0xd5, 0xdc,
  0x76, 0x7f, 0x64, 0x6d, 0x52, 0x5b, 0x40, 0x49, 0x3e, 0x37, 0x2c, 0x25, 0x1a, 0x13, 0x08, 0x01,
  0xe6, 0xef, 0xf4, 0xfd, 0xc2, 0xcb, 0xd0, 0xd9, 0xae, 0xa7, 0xbc, 0xb5, 0x8a, 0x83, 0x98, 0x91,
  0x4d, 0x44, 0x5f, 0x56, 0x69, 0x60, 0x7b, 0x72, 0x05, 0x0c, 0x17, 0x1e, 0x21, 0x28, 0x33, 0x3a,
  0xdd, 0xd4, 0xcf, 0xc6, 0xf9, 0xf0, 0xeb, 0xe2, 0x95, 0x9c, 0x87, 0x8e, 0xb1, 0xb8, 0xa3, 0xaa,
  0xec, 0xe5, 0xfe, 0xf7, 0xc8, 0xc1, 0xda, 0xd3, 0xa4, 0xad, 0xb6, 0xbf, 0x80, 0x89, 0x92, 0x9b,
  0x7c, 0x75, 0x6e, 0x67, 0x58, 0x51, 0x4a, 0x43, 0x34, 0x3d, 0x26, 0x2f, 0x10, 0x19, 0x02, 0x0b,
  0xd7, 0xde, 0xc5, 0xcc, 0xf3, 0xfa, 0xe1, 0xe8, 0x9f, 0x96, 0x8d, 0x84, 0xbb, 0xb2, 0xa9, 0xa0,
  0x47, 0x4e, 0x55, 0x5c, 0x63, 0x6a, 0x71, 0x78, 0x0f, 0x06, 0x1d, 0x14, 0x2b, 0x22, 0x39, 0x30,
  0x9a, 0x93, 0x88, 0x81, 0xbe, 0xb7, 0xac, 0xa5, 0xd2, 0xdb, 0xc0, 0xc9, 0xf6, 0xff, 0xe4, 0xed,
  0x0a, 0x03, 0x18, 0x11, 0x2e, 0x27, 0x3c, 0x35, 0x42, 0x4b, 0x50, 0x59, 0x66, 0x6f, 0x74, 0x7d,
  0xa1, 0xa8, 0xb3, 0xba, 0x85, 0x8c, 0x97, 0x9e, 0xe9, 0xe0, 0xfb, 0xf2, 0xcd, 0xc4, 0xdf, 0xd6,
  0x31, 0x38, 0x23, 0x2a, 0x15, 0x1c, 0x07, 0x0e, 0x79, 0x70, 0x6b, 0x62, 0x5d, 0x54, 0x4f, 0x46]

def aes_mul_b : List UInt8 := [
  0x00, 0x0b, 0x16, 0x1d, 0x2c, 0x27, 0x3a, 0x31, 0x58, 0x53, 0x4e, 0x45, 0x74, 0x7f, 0x62, 0x69,
  0xb0, 0xbb, 0xa6, 0xad, 0x9c, 0x97, 0x8a, 0x81, 0xe8, 0xe3, 0xfe, 0xf5, 0xc4, 0xcf, 0xd2, 0xd9,
  0x7b, 0x70, 0x6d, 0x66, 0x57, 0x5c, 0x41, 0x4a, 0x23, 0x28, 0x35, 0x3e, 0x0f, 0x04, 0x19, 0x12,
  0xcb, 0xc0, 0xdd, 0xd6, 0xe7, 0xec, 0xf1, 0xfa, 0x93, 0x98, 0x85, 0x8e, 0xbf, 0xb4, 0xa9, 0xa2,
  0xf6, 0xfd, 0xe0, 0xeb, 0xda, 0xd1, 0xcc, 0xc7, 0xae, 0xa5, 0xb8, 0xb3, 0x82, 0x89, 0x94, 0x9f,
  0x46, 0x4d, 0x50, 0x5b, 0x6a, 0x61, 0x7c, 0x77, 0x1e, 0x15, 0x08, 0x03, 0x32, 0x39, 0x24, 0x2f,
  0x8d, 0x86, 0x9b, 0x90, 0xa1, 0xaa, 0xb7, 0xbc, 0xd5, 0xde, 0xc3, 0xc8, 0xf9, 0xf2, 0xef, 0xe4,
  0x3d, 0x36, 0x2b, 0x20, 0x11, 0x1a, 0x07, 0x0c, 0x65, 0x6e, 0x73, 0x78, 0x49, 0x42, 0x5f, 0x54,
  0xf7, 0xfc, 0xe1, 0xea, 0xdb, 0xd0, 0xcd, 0xc6, 0xaf, 0xa4, 0xb9, 0xb2, 0x83, 0x88, 0x95, 0x9e,
  0x47, 0x4c, 0x51, 0x5a, 0x6b, 0x60, 0x7d, 0x76, 0x1f, 0x14, 0x09, 0x02, 0x33, 0x38, 0x25, 0x2e,
  0x8c, 0x87, 0x9a, 0x91, 0xa0, 0xab, 0xb6, 0xbd, 0xd4, 0xdf, 0xc2, 0xc9, 0xf8, 0xf3, 0xee, 0xe5,
  0x3c, 0x37, 0x2a, 0x21, 0x10, 0x1b, 0x06, 0x0d, 0x64, 0x6f, 0x72, 0x79, 0x48, 0x43, 0x5e, 0x55,
  0x01, 0x0a, 0x17, 0x1c, 0x2d, 0x26, 0x3b, 0x30, 0x59, 0x52, 0x4f, 0x44, 0x75, 0x7e, 0x63, 0x68,
  0xb1, 0xba, 0xa7, 0xac, 0x9d, 0x96, 0x8b, 0x80, 0xe9, 0xe2, 0xff, 0xf4, 0xc5, 0xce, 0xd3, 0xd8,
  0x7a, 0x71, 0x6c, 0x67, 0x56, 0x5d, 0x40, 0x4b, 0x22, 0x29, 0x34, 0x3f, 0x0e, 0x05, 0x18, 0x13,
  0xca, 0xc1, 0xdc, 0xd7, 0xe6, 0xed, 0xf0, 0xfb, 0x92, 0x99, 0x84, 0x8f, 0xbe, 0xb5, 0xa8, 0xa3]

def aes_mul_d : List UInt8 := [
  0x00, 0x0d, 0x1a, 0x17, 0x34, 0x39, 0x2e, 0x23, 0x68, 0x65, 0x72, 0x7f, 0x5c, 0x51, 0x46, 0x4b,
  0xd0, 0xdd, 0xca, 0xc7, 0xe4, 0xe9, 0xfe, 0xf3, 0xb8, 0xb5, 0xa2, 0xaf, 0x8c, 0x81, 0x96, 0x9b,
  0xbb, 0xb6, 0xa1, 0xac, 0x8f, 0x82, 0x95, 0x98, 0xd3, 0xde, 0xc9, 0xc4, 0xe7, 0xea, 0xfd, 0xf0,
  0x6b, 0x66, 0x71, 0x7c, 0x5f, 0x52, 0x45, 0x48, 0x03, 0x0e, 0x19, 0x14, 0x37, 0x3a, 0x2d, 0x20,
  0x6d, 0x60, 0x77, 0x7a, 0x59, 0x54, 0x43, 0x4e, 0x05, 0x08, 0x1f, 0x12, 0x31, 0x3c, 0x2b, 0x26,
  0xbd, 0xb0, 0xa7, 0xaa, 0x89, 0x84, 0x93, 0x9e, 0xd5, 0xd8, 0xcf, 0xc2, 0xe1, 0xec, 0xfb, 0xf6,
  0xd6, 0xdb, 0xcc, 0xc1, 0xe2, 0xef, 0xf8, 0xf5, 0xbe, 0xb3, 0xa4, 0xa9, 0x8a, 0x87, 0x90, 0x9d,
  0x06, 0x0b, 0x1c, 0x11, 0x32, 0x3f, 0x28, 0x25, 0x6e, 0x63, 0x74, 0x79, 0x5a, 0x57, 0x40, 0x4d,
  0xda, 0xd7, 0xc0, 0xcd, 0xee, 0xe3, 0xf4, 0xf9, 0xb2, 0xbf, 0xa8, 0xa5, 0x86, 0x8b, 0x9c, 0x91,
  0x0a, 0x07, 0x10, 0x1d, 0x3e, 0x33, 0x24, 0x29, 0x62, 0x6f, 0x78, 0x75, 0x56, 0x5b, 0x4c, 0x41,
  0x61, 0x6c, 0x7b, 0x76, 0x55, 0x58, 0x4f, 0x42, 0x09, 0x04, 0x13, 0x1e, 0x3d, 0x30, 0x27, 0x2a,
  0xb1, 0xbc, 0xab, 0xa6, 0x85, 0x88, 0x9f, 0x92, 0xd9, 0xd4, 0xc3, 0xce, 0xed, 0xe0, 0xf7, 0xfa,
  0xb7, 0xba, 0xad, 0xa0, 0x83, 0x8e, 0x99, 0x94, 0xdf, 0xd2, 0xc5, 0xc8, 0xeb, 0xe6, 0xf1, 0xfc,
  0x67, 0x6a, 0x7d, 0x70, 0x53, 0x5e, 0x49, 0x44, 0x0f, 0x02, 0x15, 0x18, 0x3b, 0x36, 0x21, 0x2c,
  0x0c, 0x01, 0x16, 0x1b, 0x38, 0x35, 0x22, 0x2f, 0x64, 0x69, 0x7e, 0x73, 0x50, 0x5d, 0x4a, 0x47,
  0xdc, 0xd1, 0xc6, 0xcb, 0xe8, 0xe5, 0xf2, 0xff, 0xb4, 0xb9, 0xae, 0xa3, 0x80, 0x8d, 0x9a, 0x97]

def aes_mul_e : List UInt8 := [
  0x00, 0x0e, 0x1c, 0x12, 0x38, 0x36, 0x24, 0x2a, 0x70, 0x7e, 0x6c, 0x62, 0x48, 0x46, 0x54, 0x5a,
  0xe0, 0xee, 0xfc, 0xf2, 0xd8, 0xd6, 0xc4, 0xca, 0x90, 0x9e, 0x8c, 0x82, 0xa8, 0xa6, 0xb4, 0xba,
  0xdb, 0xd5, 0xc7, 0xc9, 0xe3, 0xed, 0xff, 0xf1, 0xab, 0xa5, 0xb7, 0xb9, 0x93, 0x9d, 0x8f, 0x81,
  0x3b, 0x35, 0x27, 0x29, 0x03, 0x0d, 0x1f, 0x11, 0x4b, 0x45, 0x57, 0x59, 0x73, 0x7d, 0x6f, 0x61,
  0xad, 0xa3, 0xb1, 0xbf, 0x95, 0x9b, 0x89, 0x87, 0xdd, 0xd3, 0xc1, 0xcf, 0xe5, 0xeb, 0xf9, 0xf7,
  0x4d, 0x43, 0x51, 0x5f, 0x75, 0x7b, 0x69, 0x67, 0x3d, 0x33, 0x21, 0x2f, 0x05, 0x0b, 0x19, 0x17,
  0x76, 0x78, 0x6a, 0x64, 0x4e, 0x40, 0x52, 0x5c, 0x06, 0x08, 0x1a, 0x14, 0x3e, 0x30, 0x22, 0x2c,
  0x96, 0x98, 0x8a, 0x84, 0xae, 0xa0, 0xb2, 0xbc, 0xe6, 0xe8, 0xfa, 0xf4, 0xde, 0xd0, 0xc2, 0xcc,
  0x41, 0x4f, 0x5d, 0x53, 0x79, 0x77, 0x65, 0x6b, 0x31, 0x3f, 0x2d, 0x23, 0x09, 0x07, 0x15, 0x1b,
  0xa1, 0xaf, 0xbd, 0xb3, 0x99, 0x97, 0x85, 0x8b, 0xd1, 0xdf, 0xcd, 0xc3, 0xe9, 0xe7, 0xf5, 0xfb,
  0x9a, 0x94, 0x86, 0x88, 0xa2, 0xac, 0xbe, 0xb0, 0xea, 0xe4, 0xf6, 0xf8, 0xd2, 0xdc, 0xce, 0xc0,
  0x7a, 0x74, 0x66, 0x68, 0x42, 0x4c, 0x5e, 0x50, 0x0a, 0x04, 0x16, 0x18, 0x32, 0x3c, 0x2e, 0x20,
  0xec, 0xe2, 0xf0, 0xfe, 0xd4, 0xda, 0xc8, 0xc6, 0x9c, 0x92, 0x80, 0x8e, 0xa4, 0xaa, 0xb8, 0xb6,
  0x0c, 0x02, 0x10, 0x1e, 0x34, 0x3a, 0x28, 0x26, 0x7c, 0x72, 0x60, 0x6e, 0x44, 0x4a, 0x58, 0x56,
  0x37, 0x39, 0x2b, 0x25, 0x0f, 0x01, 0x13, 0x1d, 0x47, 0x49, 0x5b, 0x55, 0x7f, 0x71, 0x63, 0x6d,
  0xd7, 0xd9, 0xcb, 0xc5, 0xef, 0xe1, 0xf3, 0xfd, 0xa7, 0xa9, 0xbb, 0xb5, 0x9f, 0x91, 0x83, 0x8d]

def entry (table : List UInt8) (b : UInt8) : UInt8 := table.getD b.toNat 0

theorem neZero_four : NeZero 4 := ⟨by decide⟩

attribute [local instance] neZero_four

abbrev State := Vector (Vector UInt8 4) 4

def State.at (s : State) (RowIndex ColumnIndex : Fin 4) : UInt8 :=
  (s.get RowIndex).get ColumnIndex

/-- The two loops over the rows and the columns. -/
def State.of (f : Fin 4 → Fin 4 → UInt8) : State := .ofFn fun r => .ofFn fun c => f r c

def stateBlock (Block : List UInt8) : State :=
  State.of fun RowIndex ColumnIndex => Block.getD (RowIndex + 4 * ColumnIndex) 0

def blockState (s : State) : List UInt8 :=
  (List.range 16).map fun i => s.at (.ofNat 4 i) (.ofNat 4 (i / 4))

abbrev Word := Vector UInt8 4

def TempWord (NumberOfWordOfKey KeyIndex : Nat) (t : Word) : Word :=
  if KeyIndex % NumberOfWordOfKey = 0 then
    let Temprcon := aes_rcon.getD (KeyIndex / NumberOfWordOfKey) 0
    #v[entry aes_sbox_enc (t.get 1) ^^^ ((Temprcon >>> 24) &&& 0xff).toUInt8,
      entry aes_sbox_enc (t.get 2) ^^^ ((Temprcon >>> 16) &&& 0xff).toUInt8,
      entry aes_sbox_enc (t.get 3) ^^^ ((Temprcon >>> 8) &&& 0xff).toUInt8,
      entry aes_sbox_enc (t.get 0) ^^^ (Temprcon &&& 0xff).toUInt8]
  else if 6 < NumberOfWordOfKey ∧ KeyIndex % NumberOfWordOfKey = 4 then
    #v[entry aes_sbox_enc (t.get 0), entry aes_sbox_enc (t.get 1), entry aes_sbox_enc (t.get 2),
      entry aes_sbox_enc (t.get 3)]
  else t

def xorWord (v w : Word) : Word :=
  #v[v.get 0 ^^^ w.get 0, v.get 1 ^^^ w.get 1, v.get 2 ^^^ w.get 2, v.get 3 ^^^ w.get 3]

def wordAt (ws : List Word) (KeyIndex : Nat) : Word := ws.getD KeyIndex (.replicate 4 0)

/-- A turn of the loop, with the words there are so far. -/
def expansionTurn (NumberOfWordOfKey : Nat) (ws : List Word) (KeyIndex : Nat) : List Word :=
  ws ++ [xorWord (wordAt ws (KeyIndex - NumberOfWordOfKey))
    (TempWord NumberOfWordOfKey KeyIndex (wordAt ws (KeyIndex - 1)))]

def keyWords (Key : List UInt8) : List Word :=
  (List.range (Key.length >>> 2)).map fun KeyIndex =>
    #v[Key.getD (4 * KeyIndex) 0, Key.getD (4 * KeyIndex + 1) 0, Key.getD (4 * KeyIndex + 2) 0,
      Key.getD (4 * KeyIndex + 3) 0]

def RT_AES_KeyExpansion (Key : List UInt8) : List Word :=
  let NumberOfWordOfKey := Key.length >>> 2
  let NumberOfWordOfKeyExpansion := 4 * ((Key.length >>> 2) + 6 + 1)
  (List.range' NumberOfWordOfKey (NumberOfWordOfKeyExpansion - NumberOfWordOfKey)).foldl
    (expansionTurn NumberOfWordOfKey) (keyWords Key)

def AES_AddRoundKey (KeyWordExpansion : List Word) (RoundIndex : Nat) (s : State) : State :=
  State.of fun r c => s.at r c ^^^ (wordAt KeyWordExpansion (RoundIndex * 4 + c)).get r

def AES_SubBytes (s : State) : State := State.of fun r c => entry aes_sbox_enc (s.at r c)

def AES_InvSubBytes (s : State) : State := State.of fun r c => entry aes_sbox_dec (s.at r c)

/-- What is left of the exchanges through `Temp`. -/
def AES_ShiftRows (s : State) : State :=
  #v[s.get 0, #v[s.at 1 1, s.at 1 2, s.at 1 3, s.at 1 0],
    #v[s.at 2 2, s.at 2 3, s.at 2 0, s.at 2 1], #v[s.at 3 3, s.at 3 0, s.at 3 1, s.at 3 2]]

def AES_InvShiftRows (s : State) : State :=
  #v[s.get 0, #v[s.at 1 3, s.at 1 0, s.at 1 1, s.at 1 2],
    #v[s.at 2 2, s.at 2 3, s.at 2 0, s.at 2 1], #v[s.at 3 1, s.at 3 2, s.at 3 3, s.at 3 0]]

def AES_MixColumns (s : State) : State :=
  State.of fun r c =>
    let Row0 := s.at 0 c
    let Row1 := s.at 1 c
    let Row2 := s.at 2 c
    let Row3 := s.at 3 c
    match r with
    | 0 => entry aes_mul_2 Row0 ^^^ entry aes_mul_3 Row1 ^^^ Row2 ^^^ Row3
    | 1 => Row0 ^^^ entry aes_mul_2 Row1 ^^^ entry aes_mul_3 Row2 ^^^ Row3
    | 2 => Row0 ^^^ Row1 ^^^ entry aes_mul_2 Row2 ^^^ entry aes_mul_3 Row3
    | 3 => entry aes_mul_3 Row0 ^^^ Row1 ^^^ Row2 ^^^ entry aes_mul_2 Row3

def AES_InvMixColumns (s : State) : State :=
  State.of fun r c =>
    let Row0 := s.at 0 c
    let Row1 := s.at 1 c
    let Row2 := s.at 2 c
    let Row3 := s.at 3 c
    match r with
    | 0 => entry aes_mul_e Row0 ^^^ entry aes_mul_b Row1 ^^^ entry aes_mul_d Row2 ^^^
        entry aes_mul_9 Row3
    | 1 => entry aes_mul_9 Row0 ^^^ entry aes_mul_e Row1 ^^^ entry aes_mul_b Row2 ^^^
        entry aes_mul_d Row3
    | 2 => entry aes_mul_d Row0 ^^^ entry aes_mul_9 Row1 ^^^ entry aes_mul_e Row2 ^^^
        entry aes_mul_b Row3
    | 3 => entry aes_mul_b Row0 ^^^ entry aes_mul_d Row1 ^^^ entry aes_mul_9 Row2 ^^^
        entry aes_mul_e Row3

def KeySize (KeyLength : Nat) : Prop := KeyLength = 16 ∨ KeyLength = 24 ∨ KeyLength = 32

instance (KeyLength : Nat) : Decidable (KeySize KeyLength) :=
  inferInstanceAs (Decidable (_ ∨ _ ∨ _))

def NumberOfRound (Key : List UInt8) : Nat := (Key.length >>> 2) + 6

def encryptRound (w : List Word) (s : State) (RoundIndex : Nat) : State :=
  AES_AddRoundKey w RoundIndex (AES_MixColumns (AES_ShiftRows (AES_SubBytes s)))

def encryptState (Key : List UInt8) (s : State) : State :=
  let w := RT_AES_KeyExpansion Key
  let s := AES_AddRoundKey w 0 s
  let s := (List.range' 1 (NumberOfRound Key - 1)).foldl (encryptRound w) s
  AES_AddRoundKey w (NumberOfRound Key) (AES_ShiftRows (AES_SubBytes s))

def decryptRound (w : List Word) (s : State) (RoundIndex : Nat) : State :=
  AES_InvMixColumns (AES_AddRoundKey w RoundIndex (AES_InvSubBytes (AES_InvShiftRows s)))

def decryptState (Key : List UInt8) (s : State) : State :=
  let w := RT_AES_KeyExpansion Key
  let s := AES_AddRoundKey w (NumberOfRound Key) s
  let s := (List.range' 1 (NumberOfRound Key - 1)).reverse.foldl (decryptRound w) s
  AES_AddRoundKey w 0 (AES_InvSubBytes (AES_InvShiftRows s))

/-- Nothing is written if a length is not right or there is no memory for the context. -/
def RT_AES_Encrypt (os_alloc_mem : Bool) (PlainBlock Key : List UInt8) (CipherBlockSize : Nat) :
    Option (List UInt8) :=
  if PlainBlock.length ≠ AES_BLOCK_SIZES then none
  else if ¬ KeySize Key.length then none
  else if CipherBlockSize < AES_BLOCK_SIZES then none
  else if os_alloc_mem = false then none
  else some (blockState (encryptState Key (stateBlock PlainBlock)))

def RT_AES_Decrypt (os_alloc_mem : Bool) (CipherBlock Key : List UInt8) (PlainBlockSize : Nat) :
    Option (List UInt8) :=
  if PlainBlockSize < AES_BLOCK_SIZES then none
  else if ¬ KeySize Key.length then none
  else if CipherBlock.length ≠ AES_BLOCK_SIZES then none
  else if os_alloc_mem = false then none
  else some (blockState (decryptState Key (stateBlock CipherBlock)))

example : RT_AES_Encrypt true
    [0x00, 0x11, 0x22, 0x33, 0x44, 0x55, 0x66, 0x77, 0x88, 0x99, 0xaa, 0xbb, 0xcc, 0xdd, 0xee, 0xff]
    ((List.range 16).map UInt8.ofNat) 16 = some
    [0x69, 0xc4, 0xe0, 0xd8, 0x6a, 0x7b, 0x04, 0x30, 0xd8, 0xcd, 0xb7, 0x80, 0x70, 0xb4, 0xc5, 0x5a] := by
  decide +kernel

theorem get_ofFn {α : Type} {n : Nat} (f : Fin n → α) (i : Fin n) : (Vector.ofFn f).get i = f i :=
  Vector.getElem_ofFn i.isLt

namespace State
variable {s t : State} {f : Fin 4 → Fin 4 → UInt8}

@[simp] theorem at_of (f : Fin 4 → Fin 4 → UInt8) (r c : Fin 4) : (State.of f).at r c = f r c := by
  rw [State.at, State.of, get_ofFn, get_ofFn]

theorem ext_at (h : ∀ r c, s.at r c = t.at r c) : s = t := by
  refine Vector.ext fun r hr => Vector.ext fun c hc => ?_
  exact h ⟨r, hr⟩ ⟨c, hc⟩

end State

variable (w : List Word) (Key : List UInt8) (b : UInt8) (s : State) (i : Nat) (r c : Fin 4)

theorem length_blockState : (blockState s).length = 16 := by
  rw [blockState, List.length_map, List.length_range]

theorem stateBlock_blockState : stateBlock (blockState s) = s := by
  refine State.ext_at fun r c => ?_
  have hi : (r : Nat) + 4 * c < 16 := by omega
  have hr : Fin.ofNat 4 (r + 4 * c) = r := Fin.ext (show (r + 4 * c) % 4 = (r : Nat) by omega)
  have hc : Fin.ofNat 4 ((r + 4 * c) / 4) = c :=
    Fin.ext (show ((r + 4 * c) / 4) % 4 = (c : Nat) by omega)
  have hentry : (blockState s).getD (r + 4 * c) 0 =
      s.at (.ofNat 4 (r + 4 * c)) (.ofNat 4 ((r + 4 * c) / 4)) := by
    simp [blockState, hi]
  rw [stateBlock, State.at_of, hentry, hr, hc]

theorem blockState_stateBlock {Block : List UInt8} (h : Block.length = 16) :
    blockState (stateBlock Block) = Block := by
  refine List.ext_getElem (by rw [length_blockState, h]) fun i hi hi' => ?_
  have hindex : i % 4 + 4 * (i / 4 % 4) = i := by omega
  have hentry : (blockState (stateBlock Block))[i] =
      (stateBlock Block).at (.ofNat 4 i) (.ofNat 4 (i / 4)) := by
    simp [blockState]
  rw [hentry, stateBlock, State.at_of]
  show Block.getD (i % 4 + 4 * (i / 4 % 4)) 0 = _
  rw [hindex, List.getD_eq_getElem]

theorem entry_eq {table : List UInt8} {f : UInt8 → UInt8}
    (h : table = (List.range 256).map fun n => f (UInt8.ofNat n)) (b : UInt8) :
    entry table b = f b := by
  have hb : b.toNat < 256 := b.toNat_lt
  subst h
  simp [entry, hb]

theorem entry_entry {t u : List UInt8}
    (h : u.map (entry t) = (List.range 256).map UInt8.ofNat) (b : UInt8) :
    entry t (entry u b) = b := by
  have hb : b.toNat < 256 := b.toNat_lt
  have hlen : u.length = 256 := by
    have := congrArg List.length h
    rwa [List.length_map, List.length_map, List.length_range] at this
  have hentry : (u.map (entry t))[b.toNat]? = ((List.range 256).map UInt8.ofNat)[b.toNat]? := by
    rw [h]
  simpa [entry, hb, hlen] using hentry

theorem tables_eq :
    (aes_sbox_enc.map (entry aes_sbox_dec) = (List.range 256).map UInt8.ofNat ∧
      aes_sbox_dec.map (entry aes_sbox_enc) = (List.range 256).map UInt8.ofNat) ∧
    (aes_mul_2 = (List.range 256).map fun n => double (UInt8.ofNat n)) ∧
    (aes_mul_3 = (List.range 256).map fun n => UInt8.ofNat n ^^^ double (UInt8.ofNat n)) ∧
    (aes_mul_9 = (List.range 256).map fun n =>
      double (double (double (UInt8.ofNat n))) ^^^ UInt8.ofNat n) ∧
    (aes_mul_b = (List.range 256).map fun n =>
      double (double (double (UInt8.ofNat n))) ^^^ double (UInt8.ofNat n) ^^^ UInt8.ofNat n) ∧
    (aes_mul_d = (List.range 256).map fun n =>
      double (double (double (UInt8.ofNat n))) ^^^ double (double (UInt8.ofNat n)) ^^^
        UInt8.ofNat n) ∧
    (aes_mul_e = (List.range 256).map fun n =>
      double (double (double (UInt8.ofNat n))) ^^^ double (double (UInt8.ofNat n)) ^^^
        double (UInt8.ofNat n)) := by
  decide +kernel

theorem sbox_dec_enc : entry aes_sbox_dec (entry aes_sbox_enc b) = b :=
  entry_entry tables_eq.1.1 b

theorem sbox_enc_dec : entry aes_sbox_enc (entry aes_sbox_dec b) = b :=
  entry_entry tables_eq.1.2 b

theorem mul_2_eq : entry aes_mul_2 b = double b := entry_eq tables_eq.2.1 b

theorem mul_3_eq : entry aes_mul_3 b = b ^^^ double b :=
  entry_eq (f := fun b => b ^^^ double b) tables_eq.2.2.1 b

theorem mul_9_eq : entry aes_mul_9 b = double (double (double b)) ^^^ b :=
  entry_eq (f := fun b => double (double (double b)) ^^^ b) tables_eq.2.2.2.1 b

theorem mul_b_eq : entry aes_mul_b b = double (double (double b)) ^^^ double b ^^^ b :=
  entry_eq (f := fun b => double (double (double b)) ^^^ double b ^^^ b) tables_eq.2.2.2.2.1 b

theorem mul_d_eq : entry aes_mul_d b = double (double (double b)) ^^^ double (double b) ^^^ b :=
  entry_eq (f := fun b => double (double (double b)) ^^^ double (double b) ^^^ b)
    tables_eq.2.2.2.2.2.1 b

theorem mul_e_eq :
    entry aes_mul_e b = double (double (double b)) ^^^ double (double b) ^^^ double b :=
  entry_eq (f := fun b => double (double (double b)) ^^^ double (double b) ^^^ double b)
    tables_eq.2.2.2.2.2.2 b

theorem invSubBytes_subBytes : AES_InvSubBytes (AES_SubBytes s) = s := by
  refine State.ext_at fun r c => ?_
  rw [AES_InvSubBytes, State.at_of, AES_SubBytes, State.at_of, sbox_dec_enc]

theorem subBytes_invSubBytes : AES_SubBytes (AES_InvSubBytes s) = s := by
  refine State.ext_at fun r c => ?_
  rw [AES_SubBytes, State.at_of, AES_InvSubBytes, State.at_of, sbox_enc_dec]

theorem invShiftRows_shiftRows : AES_InvShiftRows (AES_ShiftRows s) = s := by
  refine State.ext_at fun r c => ?_
  fin_cases r <;> fin_cases c <;> rfl

theorem shiftRows_invShiftRows : AES_ShiftRows (AES_InvShiftRows s) = s := by
  refine State.ext_at fun r c => ?_
  fin_cases r <;> fin_cases c <;> rfl

theorem mixColumns_at :
    (AES_MixColumns s).at r c =
      mixByte (s.at r c) (s.at (r + 1) c) (s.at (r + 2) c) (s.at (r + 3) c) := by
  rw [AES_MixColumns, State.at_of]
  simp only [mul_2_eq, mul_3_eq]
  match r with
  | 0 => rfl
  | 1 =>
    show _ = mixByte (s.at 1 c) (s.at 2 c) (s.at 3 c) (s.at 0 c)
    unfold mixByte
    ac_rfl
  | 2 =>
    show _ = mixByte (s.at 2 c) (s.at 3 c) (s.at 0 c) (s.at 1 c)
    unfold mixByte
    ac_rfl
  | 3 =>
    show _ = mixByte (s.at 3 c) (s.at 0 c) (s.at 1 c) (s.at 2 c)
    unfold mixByte
    ac_rfl

theorem invMixColumns_at :
    (AES_InvMixColumns s).at r c =
      unmixByte (s.at r c) (s.at (r + 1) c) (s.at (r + 2) c) (s.at (r + 3) c) := by
  rw [AES_InvMixColumns, State.at_of]
  simp only [mul_9_eq, mul_b_eq, mul_d_eq, mul_e_eq]
  match r with
  | 0 => rfl
  | 1 =>
    show _ = unmixByte (s.at 1 c) (s.at 2 c) (s.at 3 c) (s.at 0 c)
    unfold unmixByte
    ac_rfl
  | 2 =>
    show _ = unmixByte (s.at 2 c) (s.at 3 c) (s.at 0 c) (s.at 1 c)
    unfold unmixByte
    ac_rfl
  | 3 =>
    show _ = unmixByte (s.at 3 c) (s.at 0 c) (s.at 1 c) (s.at 2 c)
    unfold unmixByte
    ac_rfl

theorem row_add :
    r + 1 + 1 = r + 2 ∧ r + 1 + 2 = r + 3 ∧ r + 1 + 3 = r ∧ r + 2 + 1 = r + 3 ∧ r + 2 + 2 = r ∧
      r + 2 + 3 = r + 1 ∧ r + 3 + 1 = r ∧ r + 3 + 2 = r + 1 ∧ r + 3 + 3 = r + 2 := by
  revert r
  decide

theorem invMixColumns_mixColumns : AES_InvMixColumns (AES_MixColumns s) = s := by
  refine State.ext_at fun r c => ?_
  obtain ⟨h11, h12, h13, h21, h22, h23, h31, h32, h33⟩ := row_add r
  simp only [invMixColumns_at, mixColumns_at, h11, h12, h13, h21, h22, h23, h31, h32, h33]
  exact unmixByte_mixByte _ _ _ _

theorem mixColumns_invMixColumns : AES_MixColumns (AES_InvMixColumns s) = s := by
  refine State.ext_at fun r c => ?_
  obtain ⟨h11, h12, h13, h21, h22, h23, h31, h32, h33⟩ := row_add r
  simp only [invMixColumns_at, mixColumns_at, h11, h12, h13, h21, h22, h23, h31, h32, h33]
  exact mixByte_unmixByte _ _ _ _

theorem addRoundKey_twice (s : State) : AES_AddRoundKey w i (AES_AddRoundKey w i s) = s := by
  refine State.ext_at fun r c => ?_
  rw [AES_AddRoundKey, State.at_of, AES_AddRoundKey, State.at_of, xor_cancel]

def scramble (s : State) : State := AES_ShiftRows (AES_SubBytes s)

def unscramble (s : State) : State := AES_InvSubBytes (AES_InvShiftRows s)

theorem unscramble_scramble : unscramble (scramble s) = s := by
  rw [unscramble, scramble, invShiftRows_shiftRows, invSubBytes_subBytes]

theorem scramble_unscramble : scramble (unscramble s) = s := by
  rw [unscramble, scramble, subBytes_invSubBytes, shiftRows_invShiftRows]

def scrambledRound (w : List Word) (s : State) (RoundIndex : Nat) : State :=
  scramble (AES_AddRoundKey w RoundIndex (AES_MixColumns s))

theorem decryptRound_scrambledRound : decryptRound w (scrambledRound w s i) i = s := by
  have h := unscramble_scramble (AES_AddRoundKey w i (AES_MixColumns s))
  rw [unscramble] at h
  rw [decryptRound, scrambledRound, h, addRoundKey_twice, invMixColumns_mixColumns]

theorem scrambledRound_decryptRound : scrambledRound w (decryptRound w s i) i = s := by
  rw [decryptRound, scrambledRound, mixColumns_invMixColumns, addRoundKey_twice]
  exact scramble_unscramble s

theorem scramble_rounds (l : List Nat) (s : State) :
    scramble (l.foldl (encryptRound w) s) = l.foldl (scrambledRound w) (scramble s) := by
  refine (List.foldl_hom scramble fun s i => ?_).symm
  rfl

theorem decryptState_encryptState : decryptState Key (encryptState Key s) = s := by
  have hrounds := foldl_undo (f := scrambledRound (RT_AES_KeyExpansion Key))
    (g := decryptRound (RT_AES_KeyExpansion Key)) (I := fun _ => True)
    (l := List.range' 1 (NumberOfRound Key - 1))
    (s := scramble (AES_AddRoundKey (RT_AES_KeyExpansion Key) 0 s))
    (fun _ _ _ _ => trivial) (fun s i _ _ => decryptRound_scrambledRound _ s i) trivial
  have hlast := scramble_rounds (RT_AES_KeyExpansion Key) (List.range' 1 (NumberOfRound Key - 1))
    (AES_AddRoundKey (RT_AES_KeyExpansion Key) 0 s)
  unfold decryptState encryptState
  simp only [addRoundKey_twice]
  rw [scramble] at hlast
  rw [hlast, hrounds]
  have hfirst := unscramble_scramble (AES_AddRoundKey (RT_AES_KeyExpansion Key) 0 s)
  rw [unscramble] at hfirst
  rw [hfirst, addRoundKey_twice]

theorem encryptState_decryptState : encryptState Key (decryptState Key s) = s := by
  have hrounds := foldl_undo (f := decryptRound (RT_AES_KeyExpansion Key))
    (g := scrambledRound (RT_AES_KeyExpansion Key)) (I := fun _ => True)
    (l := (List.range' 1 (NumberOfRound Key - 1)).reverse)
    (s := AES_AddRoundKey (RT_AES_KeyExpansion Key) (NumberOfRound Key) s)
    (fun _ _ _ _ => trivial) (fun s i _ _ => scrambledRound_decryptRound _ s i) trivial
  rw [List.reverse_reverse] at hrounds
  have hlast := scramble_rounds (RT_AES_KeyExpansion Key) (List.range' 1 (NumberOfRound Key - 1))
    (unscramble ((List.range' 1 (NumberOfRound Key - 1)).reverse.foldl
      (decryptRound (RT_AES_KeyExpansion Key))
      (AES_AddRoundKey (RT_AES_KeyExpansion Key) (NumberOfRound Key) s)))
  rw [scramble_unscramble, hrounds] at hlast
  unfold decryptState encryptState
  simp only [addRoundKey_twice]
  rw [scramble, unscramble] at hlast
  rw [hlast, addRoundKey_twice]

theorem RT_AES_Encrypt_eq {PlainBlock Key : List UInt8} {CipherBlockSize : Nat}
    (hblock : PlainBlock.length = 16) (hkey : KeySize Key.length) (hsize : 16 ≤ CipherBlockSize) :
    RT_AES_Encrypt true PlainBlock Key CipherBlockSize =
      some (blockState (encryptState Key (stateBlock PlainBlock))) := by
  unfold RT_AES_Encrypt AES_BLOCK_SIZES
  rw [if_neg (not_not.mpr hblock), if_neg (not_not.mpr hkey), if_neg (Nat.not_lt.mpr hsize),
    if_neg Bool.noConfusion]

theorem RT_AES_Decrypt_eq {CipherBlock Key : List UInt8} {PlainBlockSize : Nat}
    (hblock : CipherBlock.length = 16) (hkey : KeySize Key.length) (hsize : 16 ≤ PlainBlockSize) :
    RT_AES_Decrypt true CipherBlock Key PlainBlockSize =
      some (blockState (decryptState Key (stateBlock CipherBlock))) := by
  unfold RT_AES_Decrypt AES_BLOCK_SIZES
  rw [if_neg (Nat.not_lt.mpr hsize), if_neg (not_not.mpr hkey), if_neg (not_not.mpr hblock),
    if_neg Bool.noConfusion]

def aesCipher : BlockCipher 16 where
  encrypt Key Block := (RT_AES_Encrypt true Block Key 16).getD Block
  decrypt Key Block := (RT_AES_Decrypt true Block Key 16).getD Block
  length_encrypt Key Block h := by
    unfold RT_AES_Encrypt
    split_ifs
    all_goals first | exact h | exact length_blockState _
  length_decrypt Key Block h := by
    unfold RT_AES_Decrypt
    split_ifs
    all_goals first | exact h | exact length_blockState _
  decrypt_encrypt Key Block h := by
    by_cases hkey : KeySize Key.length
    · rw [RT_AES_Encrypt_eq h hkey le_rfl, Option.getD_some,
        RT_AES_Decrypt_eq (length_blockState _) hkey le_rfl, Option.getD_some,
        stateBlock_blockState, decryptState_encryptState, blockState_stateBlock h]
    · simp [RT_AES_Encrypt, RT_AES_Decrypt, AES_BLOCK_SIZES, h, hkey]
  encrypt_decrypt Key Block h := by
    by_cases hkey : KeySize Key.length
    · rw [RT_AES_Decrypt_eq h hkey le_rfl, Option.getD_some,
        RT_AES_Encrypt_eq (length_blockState _) hkey le_rfl, Option.getD_some,
        stateBlock_blockState, encryptState_decryptState, blockState_stateBlock h]
    · simp [RT_AES_Encrypt, RT_AES_Decrypt, AES_BLOCK_SIZES, h, hkey]

end Ralink.Crypt
