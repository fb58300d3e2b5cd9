import DnsSeeder.Serving
import DnsSeeder.RateCounters
import DnsSeeder.Durations
import DnsSeeder.Store.UserAgent
import DnsSeeder.Store.Batch
import DnsSeeder.Store.Prune
import DnsSeeder.Store.Summary
import DnsSeeder.Crawler.Bootstrap
import DnsSeeder.Crawler.Cadence
import DnsSeeder.Crawler.Stamps
import DnsSeeder.Crawler.ApplySuccess
import DnsSeeder.Crawler.Pending
import DnsSeeder.Crawler.Classify
import DnsSeeder.Crawler.Tick
import DnsSeeder.Dns.Answers
import DnsSeeder.Dns.Refresh
import DnsSeeder.Web.Disclosure
import DnsSeeder.Store.Durable
import DnsSeeder.Store.ApiKey
import DnsSeeder.Dns.Vouched
import DnsSeeder.Crawler.Shutdown
import DnsSeeder.Crawler.Seeders
import DnsSeeder.Crawler.Handshake
import DnsSeeder.Web.Accounting
import DnsSeeder.Web.Health
import DnsSeeder.RateMemory
import DnsSeeder.Crawler.Fading
import DnsSeeder.Crawler.OldestFirst
import DnsSeeder.Store.Layout
import DnsSeeder.Crawler.Growth
import DnsSeeder.Lifecycle.Signal
import DnsSeeder.Listen
import DnsSeeder.Crawler.Tally
